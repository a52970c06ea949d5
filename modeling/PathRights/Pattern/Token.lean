import PathRights.Pattern.CharClass
import PathRights.Text.Numeral

/-!
The tokens of a pattern and the texts that they stand for. A token stands for a set of texts; the
meaning is given by `Token.rests`, the texts that can be left over after a token took a beginning.
No token but the two for `**` and a class that has `/` as a member takes a `/` of the path.
-/

namespace PathRights.Pattern

/-- A token of a pattern. -/
inductive Token where
  /-- One given character. -/
  | char (c : Char)
  /-- As many characters other than `/` as there are `?` in a row. -/
  | row (count : Nat)
  /-- Any number of characters other than `/`: a single `*`. -/
  | star
  /-- One character that a class accepts. -/
  | bracket (cls : CharClass)
  /-- A `/` and any number of whole components, each with its `/`: a `**` between two `/`. -/
  | span
  /-- A `/` and at least one character: a `**` after the last `/`. -/
  | below
deriving DecidableEq, Repr

/-- The beginnings of `text` without a `/`, given by what is left over, the longest rest first. -/
def afterRun : Text → List Text
  | [] => [[]]
  | c :: rest => (c :: rest) :: if c = '/' then [] else afterRun rest

/-- What is left over after `count` characters other than `/`. -/
def afterRow : Nat → Text → List Text
  | 0, text => [text]
  | _ + 1, [] => []
  | count + 1, c :: rest => if c = '/' then [] else afterRow count rest

/-- What is left over after any number of components that are not empty, each with its `/`. While
`inside` is set, a component has begun and must be ended. -/
def afterComponents : (inside : Bool) → Text → List Text
  | inside, [] => if inside then [] else [[]]
  | false, c :: rest => (c :: rest) :: if c = '/' then [] else afterComponents true rest
  | true, c :: rest => if c = '/' then afterComponents false rest else afterComponents true rest

/-- What is left over after at least one character. -/
def afterSomething : Text → List Text
  | [] => []
  | _ :: rest => rest :: afterSomething rest

/-- The text itself and what follows each `/` in it: the places where a pattern without an anchor
can begin. -/
def starts (text : Text) : List Text := text :: afterSlash text
where
  /-- What follows each `/`. -/
  afterSlash : Text → List Text
    | [] => []
    | c :: rest => if c = '/' then rest :: afterSlash rest else afterSlash rest

namespace Token

/-- The texts that can be left over after the token took a beginning of `text`. -/
def rests : Token → Text → List Text
  | .char c, x :: rest => if x = c then [rest] else []
  | .row count, text => afterRow count text
  | .star, text => afterRun text
  | .bracket cls, x :: rest => if cls.accepts x then [rest] else []
  | .span, '/' :: rest => afterComponents false rest
  | .below, '/' :: rest => afterSomething rest
  | _, _ => []

/-- The token in the notation of regular expressions. -/
def expression : Token → Text
  | .char c => escape c
  | .row count =>
    if count = 1 then "[^/]" else "[^/]\x7b" ++ Text.ofNat count ++ "\x7d"
  | .star => "[^/]*"
  | .bracket cls => cls.expression
  | .span => "/(?:[^/]+/)*"
  | .below => "/.+"

/-- Puts one `?` in front: it joins a row of them. -/
def consRow : List Token → List Token
  | .row count :: tokens => .row (count + 1) :: tokens
  | tokens => .row 1 :: tokens

/-- Reads the tokens of a pattern. There are none if `**` is anything but a whole component. -/
def read? : Text → Option (List Token)
  | [] => some []
  | '/' :: '*' :: '*' :: '/' :: rest => (read? rest).map (.span :: ·)
  | ['/', '*', '*'] => some [.below]
  | '*' :: '*' :: _ => none
  | '*' :: rest => (read? rest).map (.star :: ·)
  | '?' :: rest => (read? rest).map consRow
  | '[' :: rest =>
    match _ : CharClass.read? rest with
    | some (cls, after) => (read? after).map (.bracket cls :: ·)
    | none => (read? rest).map (.char '[' :: ·)
  | '\\' :: c :: rest => (read? rest).map (.char c :: ·)
  | c :: rest => (read? rest).map (.char c :: ·)
termination_by text => text.length
decreasing_by
  all_goals simp only [List.length_cons]
  all_goals try omega
  exact Nat.lt_succ_of_lt (CharClass.length_read? (by assumption))

/-- The tokens stand for the whole text. -/
def accepts : List Token → Text → Bool
  | [], text => text.isEmpty
  | token :: tokens, text => (token.rests text).any (accepts tokens)

end Token

end PathRights.Pattern
