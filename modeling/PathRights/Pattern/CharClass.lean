import PathRights.Text.Basic

/-!
Bracket classes: `[abc]`, `[a-z]`, `[!a-z]`. A class ends at the first `]` that is neither behind a
backslash nor the very first member. Its members are characters and ranges by character number; a
character behind a backslash stands for itself only.

A class is written out in the notation of regular expressions, where a range that runs backwards is
a fault. The fault names both ends as they are written there.
-/

namespace PathRights.Pattern

/-- The characters that have a meaning of their own in a regular expression. -/
def metacharacters : Text := "\t\n\r\u000b\u000c #$&()*+-.?[\\]^\x7b|\x7d~"

/-- The character in a regular expression where it stands for itself. -/
def escape (c : Char) : Text := if metacharacters.contains c then ['\\', c] else [c]

/-- A character inside brackets, with or without a backslash in front. -/
structure ClassItem where
  char : Char
  escaped : Bool
deriving DecidableEq, Repr

/-- The character in the expression. A bracket never opens a class inside a class. -/
def ClassItem.expression (item : ClassItem) : Text :=
  if item.escaped || item.char == '[' then escape item.char else [item.char]

/-- The character joins its neighbours to a range. -/
def ClassItem.isDash (item : ClassItem) : Bool := item.char == '-' && !item.escaped

/-- A member of a class: one character, or all from `low` to `high`. -/
inductive ClassMember where
  | single (item : ClassItem)
  | range (low high : ClassItem)
deriving DecidableEq, Repr

/-- The member covers a character. -/
def ClassMember.covers (c : Char) : ClassMember → Bool
  | .single item => c == item.char
  | .range low high => low.char ≤ c && c ≤ high.char

/-- The member is a range that runs backwards. -/
def ClassMember.isDescending : ClassMember → Bool
  | .single _ => false
  | .range low high => high.char < low.char

/-- A bracket class. -/
structure CharClass where
  negated : Bool
  items : List ClassItem
deriving DecidableEq, Repr

namespace CharClass

/-- The members that characters make up: a dash between two of them makes a range, and what follows
a range starts anew. -/
def membersOf : List ClassItem → List ClassMember
  | [] => []
  | low :: dash :: high :: rest =>
    if dash.isDash then .range low high :: membersOf rest
    else .single low :: membersOf (dash :: high :: rest)
  | item :: rest => .single item :: membersOf rest

/-- The members of the class. -/
def members (cls : CharClass) : List ClassMember := membersOf cls.items

/-- The class accepts a character. -/
def accepts (cls : CharClass) (c : Char) : Bool :=
  cls.members.any (·.covers c) != cls.negated

/-- The class in the expression. -/
def expression (cls : CharClass) : Text :=
  "[" ++ (if cls.negated then ['^'] else []) ++ cls.items.flatMap ClassItem.expression ++ "]"

/-- Reads the members up to the closing bracket: them, and what follows the bracket. -/
def readItems : Text → Option (List ClassItem × Text)
  | [] => none
  | ']' :: rest => some ([], rest)
  | '\\' :: c :: rest => (readItems rest).map fun (items, after) => (⟨c, true⟩ :: items, after)
  | c :: rest => (readItems rest).map fun (items, after) => (⟨c, false⟩ :: items, after)

/-- Reads the members, the first of which may be a `]`. -/
def readMembers : Text → Option (List ClassItem × Text)
  | ']' :: rest => (readItems rest).map fun (items, after) => (⟨']', false⟩ :: items, after)
  | text => readItems text

/-- Reads a class after its opening bracket: the class, and what follows it. -/
def read? : Text → Option (CharClass × Text)
  | '!' :: rest => (readMembers rest).map fun (items, after) => (⟨true, items⟩, after)
  | '^' :: rest => (readMembers rest).map fun (items, after) => (⟨true, items⟩, after)
  | text => (readMembers text).map fun (items, after) => (⟨false, items⟩, after)

theorem length_readItems {text : Text} {items : List ClassItem} {after : Text}
    (h : readItems text = some (items, after)) : after.length < text.length := by
  fun_induction readItems text generalizing items after with
  | case1 => simp at h
  | case2 rest => simp_all
  | case3 c rest ih =>
    obtain ⟨⟨items', after'⟩, hrest, heq⟩ := Option.map_eq_some_iff.1 h
    simp only [Prod.mk.injEq] at heq
    have := ih hrest
    simp only [List.length_cons, ← heq.2]
    omega
  | case4 c rest _ _ ih =>
    obtain ⟨⟨items', after'⟩, hrest, heq⟩ := Option.map_eq_some_iff.1 h
    simp only [Prod.mk.injEq] at heq
    have := ih hrest
    simp only [List.length_cons, ← heq.2]
    omega

theorem length_readMembers {text : Text} {items : List ClassItem} {after : Text}
    (h : readMembers text = some (items, after)) : after.length < text.length := by
  unfold readMembers at h
  split at h
  · obtain ⟨⟨items', after'⟩, hrest, heq⟩ := Option.map_eq_some_iff.1 h
    simp only [Prod.mk.injEq] at heq
    have := length_readItems hrest
    simp only [List.length_cons, ← heq.2]
    omega
  · exact length_readItems h

/-- Reading a class uses up text. -/
theorem length_read? {text : Text} {cls : CharClass} {after : Text}
    (h : read? text = some (cls, after)) : after.length < text.length := by
  unfold read? at h
  split at h <;>
  · obtain ⟨⟨items', after'⟩, hrest, heq⟩ := Option.map_eq_some_iff.1 h
    simp only [Prod.mk.injEq] at heq
    have := length_readMembers hrest
    simp only [List.length_cons, ← heq.2]
    omega

end CharClass

end PathRights.Pattern
