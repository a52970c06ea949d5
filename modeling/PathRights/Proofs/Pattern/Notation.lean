import PathRights.Proofs.Pattern.Compilation

/-! The notation of regular expressions, as far as patterns are written in it, and the proof that
what is written is well formed. A set in brackets is read from left to right: a bracket closes it
unless it is the first member, and a dash between two characters makes a range, which must not run
backwards. `wellFormed_text` says that a pattern is written as a well-formed expression when no
range of it runs backwards. -/

namespace PathRights.Pattern

namespace Notation

/-- The characters that stand for something else than themselves. -/
def special : Text := "\\.[]()*+?|^$\x7b\x7d"

/-- The text begins with one character of a set, as itself or behind a backslash, and `rest`
follows. -/
inductive SetChar : (text : Text) → Char → (rest : Text) → Prop
  | plain {c : Char} {rest : Text} (h : c ≠ '\\') : SetChar (c :: rest) c rest
  | escaped {c : Char} {rest : Text} (h : c.isAlphanum = false) : SetChar ('\\' :: c :: rest) c rest

/-- The text begins with members of a set, given by their ends, and the bracket that closes it, and
`rest` follows. A bracket that comes `first` does not close the set. -/
inductive SetMembers : (first : Bool) → (text : Text) → List (Char × Char) → (rest : Text) → Prop
  | close {rest : Text} : SetMembers false (']' :: rest) [] rest
  | single {first : Bool} {c : Char} {text next rest : Text} {members : List (Char × Char)}
      (hopen : first = false → text.head? ≠ some ']') (hchar : SetChar text c next)
      (hdash : next.head? ≠ some '-') (hnext : SetMembers false next members rest) :
      SetMembers first text ((c, c) :: members) rest
  | dash {first : Bool} {c : Char} {text rest : Text}
      (hopen : first = false → text.head? ≠ some ']')
      (hchar : SetChar text c ('-' :: ']' :: rest)) :
      SetMembers first text [(c, c), ('-', '-')] rest
  | range {first : Bool} {low high : Char} {text between next rest : Text}
      {members : List (Char × Char)} (hopen : first = false → text.head? ≠ some ']')
      (hlow : SetChar text low ('-' :: between)) (hbetween : between.head? ≠ some ']')
      (hhigh : SetChar between high next) (hle : low ≤ high)
      (hnext : SetMembers false next members rest) :
      SetMembers first text ((low, high) :: members) rest

/-- The text is a set behind its opening bracket. -/
inductive IsSet : Text → Prop
  | plain {text : Text} {members : List (Char × Char)} (hcaret : text.head? ≠ some '^')
      (h : SetMembers true text members []) : IsSet text
  | negated {text : Text} {members : List (Char × Char)} (h : SetMembers true text members []) :
      IsSet ('^' :: text)

/-- What may stand behind a part of an expression to repeat it. -/
inductive IsQuantifier : Text → Prop
  | once : IsQuantifier []
  | star : IsQuantifier ['*']
  | plus : IsQuantifier ['+']
  | option : IsQuantifier ['?']
  | count (n : Nat) : IsQuantifier ('\x7b' :: (Text.ofNat n ++ ['\x7d']))

mutual

/-- The text is a part of an expression that can be repeated as a whole. -/
inductive IsAtom : Text → Prop
  | plain {c : Char} (h : c ∉ special) : IsAtom [c]
  | escaped {c : Char} (h : c.isAlphanum = false) : IsAtom ['\\', c]
  | any : IsAtom ['.']
  | set {text : Text} (h : IsSet text) : IsAtom ('[' :: text)
  | group {text : Text} (h : WellFormed text) : IsAtom ("(?:" ++ text ++ ")")

/-- The text is a well-formed expression. -/
inductive WellFormed : Text → Prop
  | nil : WellFormed []
  | cons {atom quantifier rest : Text} (hatom : IsAtom atom) (hquantifier : IsQuantifier quantifier)
      (hrest : WellFormed rest) : WellFormed (atom ++ quantifier ++ rest)

end

end Notation

open Notation

/-! ### Classes as sets -/

/-- An unescaped member is neither a backslash nor a bracket. -/
def ClassItem.IsPlain (item : ClassItem) : Prop :=
  item.escaped = false → item.char ≠ ']' ∧ item.char ≠ '\\'

theorem isAlphanum_of_mem_metacharacters {c : Char} (h : c ∈ metacharacters) :
    c.isAlphanum = false := by
  have hall : metacharacters.all (!·.isAlphanum) = true := by decide
  simpa using List.all_eq_true.1 hall c h

theorem ClassItem.setChar_expression {item : ClassItem}
    (h : item.escaped = false → item.char ≠ '\\')
    (rest : Text) : SetChar (item.expression ++ rest) item.char rest := by
  unfold ClassItem.expression escape
  split
  · split
    · next hmeta =>
      exact .escaped (isAlphanum_of_mem_metacharacters (List.contains_iff_mem.1 hmeta))
    · next hmeta =>
      refine .plain fun e => hmeta ?_
      rw [e]
      decide
  · next hplain =>
    refine .plain (h ?_)
    cases hescaped : item.escaped <;> simp_all

/-- Only a member without a backslash is written as an operator. -/
theorem ClassItem.head?_expression {item : ClassItem} {c : Char} {rest : Text}
    (hmeta : c ∈ metacharacters) (hescape : c ≠ '\\') (hbracket : c ≠ '[') :
    (item.expression ++ rest).head? = some c ↔ item = ⟨c, false⟩ := by
  obtain ⟨d, escaped⟩ := item
  unfold ClassItem.expression escape
  cases escaped
  · by_cases hd : d = '['
    · subst hd
      simp [show '[' ∈ metacharacters from by decide, hbracket.symm, hescape.symm]
    · simp [hd]
  · by_cases hd : d ∈ metacharacters
    · simp [hd, hescape.symm]
    · have hne : d ≠ c := by
        rintro rfl
        exact hd hmeta
      simp [hd, hne]

namespace CharClass

theorem readItems_isPlain {text after : Text} {items : List ClassItem}
    (h : readItems text = some (items, after)) : ∀ item ∈ items, item.IsPlain := by
  fun_induction readItems text generalizing items with
  | case1 => simp at h
  | case2 rest =>
    simp only [Option.some.injEq, Prod.mk.injEq] at h
    simp [← h.1]
  | case3 c rest ih =>
    obtain ⟨⟨items', after'⟩, hrest, heq⟩ := Option.map_eq_some_iff.1 h
    simp only [Prod.mk.injEq] at heq
    obtain ⟨rfl, rfl⟩ := heq
    simpa [ClassItem.IsPlain] using ih hrest
  | case4 c rest hbracket hescape ih =>
    obtain ⟨⟨items', after'⟩, hrest, heq⟩ := Option.map_eq_some_iff.1 h
    simp only [Prod.mk.injEq] at heq
    obtain ⟨rfl, rfl⟩ := heq
    have hc : c ≠ '\\' := by
      rintro rfl
      cases rest with
      | nil => simp [readItems] at hrest
      | cons d rest => exact hescape d rest rfl rfl
    have hne : c ≠ ']' := hbracket
    simpa [ClassItem.IsPlain, hc, hne] using ih hrest

/-- Members as they are read: there is one, none but the first is a plain bracket, and none is a
plain backslash. -/
structure AreReadable (items : List ClassItem) : Prop where
  ne_nil : items ≠ []
  plain_tail : ∀ item ∈ items.tail, item.IsPlain
  not_escape : ∀ item ∈ items, item.escaped = false → item.char ≠ '\\'

theorem readMembers_areReadable {text after : Text} {items : List ClassItem}
    (h : readMembers text = some (items, after)) : AreReadable items := by
  obtain ⟨hne, -⟩ := readMembers_local h
  unfold readMembers at h
  split at h
  · obtain ⟨⟨items', after'⟩, hrest, heq⟩ := Option.map_eq_some_iff.1 h
    simp only [Prod.mk.injEq] at heq
    obtain ⟨rfl, rfl⟩ := heq
    have hplain := readItems_isPlain hrest
    refine ⟨hne, hplain, ?_⟩
    simpa using fun item hitem hescaped => (hplain item hitem hescaped).2
  · have hplain := readItems_isPlain h
    exact ⟨hne, fun item hitem => hplain item (List.mem_of_mem_tail hitem),
      fun item hitem hescaped => (hplain item hitem hescaped).2⟩

/-- A first member without a backslash is the first character of the text. -/
theorem head?_of_readMembers {text after : Text} {c : Char} {items : List ClassItem}
    (h : readMembers text = some (⟨c, false⟩ :: items, after)) : text.head? = some c := by
  unfold readMembers at h
  split at h
  · obtain ⟨⟨items', after'⟩, hrest, heq⟩ := Option.map_eq_some_iff.1 h
    simp only [Prod.mk.injEq, List.cons.injEq, ClassItem.mk.injEq, and_true] at heq
    exact congrArg some heq.1.1
  · unfold readItems at h
    split at h
    · cases h
    · simp at h
    · obtain ⟨⟨items', after'⟩, hrest, heq⟩ := Option.map_eq_some_iff.1 h
      simp at heq
    · obtain ⟨⟨items', after'⟩, hrest, heq⟩ := Option.map_eq_some_iff.1 h
      simp only [Prod.mk.injEq, List.cons.injEq, ClassItem.mk.injEq, and_true] at heq
      simp [heq.1.1]

/-- A class as it is read. A plain `^` in front would have been its mark of negation. -/
theorem read?_areReadable {text after : Text} {cls : CharClass}
    (h : read? text = some (cls, after)) :
    AreReadable cls.items ∧ (cls.negated = false → cls.items.head? ≠ some ⟨'^', false⟩) := by
  unfold read? at h
  split at h
  case h_3 hcaret =>
    obtain ⟨⟨items, after'⟩, hrest, heq⟩ := Option.map_eq_some_iff.1 h
    obtain ⟨rfl, rfl⟩ := Prod.mk.inj heq
    refine ⟨readMembers_areReadable hrest, fun _ hhead => ?_⟩
    obtain ⟨items, rfl⟩ := List.head?_eq_some_iff.1 hhead
    obtain ⟨rest, rfl⟩ := List.head?_eq_some_iff.1 (head?_of_readMembers hrest)
    exact hcaret rest rfl
  all_goals
    obtain ⟨⟨items, after'⟩, hrest, heq⟩ := Option.map_eq_some_iff.1 h
    obtain ⟨rfl, rfl⟩ := Prod.mk.inj heq
    exact ⟨readMembers_areReadable hrest, by simp⟩

end CharClass

/-- The ends of a member. -/
def ClassMember.ends : ClassMember → Char × Char
  | .single item => (item.char, item.char)
  | .range low high => (low.char, high.char)

namespace CharClass

theorem eq_of_isDash {item : ClassItem} (h : item.isDash = true) : item = ⟨'-', false⟩ := by
  obtain ⟨c, escaped⟩ := item
  simpa [ClassItem.isDash] using h

theorem head?_flatMap_expression {item : ClassItem} (h : item.IsPlain) (items : List ClassItem)
    (rest : Text) :
    ((item :: items).flatMap ClassItem.expression ++ rest).head? ≠ some ']' := by
  rw [List.flatMap_cons, List.append_assoc, Ne,
    ClassItem.head?_expression (by decide) (by decide) (by decide)]
  rintro rfl
  exact (h rfl).1 rfl

theorem setMembers_single {first : Bool} {item : ClassItem} {items : List ClassItem} {rest : Text}
    {members : List (Char × Char)} (hopen : first = false → item.IsPlain)
    (hescape : item.escaped = false → item.char ≠ '\\')
    (hdash : ∀ next, items.head? = some next → next.isDash = false)
    (h : SetMembers false (items.flatMap ClassItem.expression ++ ']' :: rest) members rest) :
    SetMembers first ((item :: items).flatMap ClassItem.expression ++ ']' :: rest)
      ((item.char, item.char) :: members) rest := by
  have hopen' := fun hfirst => head?_flatMap_expression (hopen hfirst) items (']' :: rest)
  rw [List.flatMap_cons, List.append_assoc] at hopen' ⊢
  refine .single hopen' (ClassItem.setChar_expression hescape _) ?_ h
  cases items with
  | nil => simp
  | cons next items =>
    rw [List.flatMap_cons, List.append_assoc, Ne,
      ClassItem.head?_expression (by decide) (by decide) (by decide)]
    rintro rfl
    simp [ClassItem.isDash] at hdash

/-- The members of a class as it is written are its members, if no range of them runs backwards. -/
theorem setMembers_expression {first : Bool} {items : List ClassItem}
    (hopen : first = false → ∀ item ∈ items, item.IsPlain) (hne : first = true → items ≠ [])
    (htail : ∀ item ∈ items.tail, item.IsPlain)
    (hescape : ∀ item ∈ items, item.escaped = false → item.char ≠ '\\')
    (hascending : ∀ member ∈ membersOf items, member.isDescending = false) (rest : Text) :
    SetMembers first (items.flatMap ClassItem.expression ++ ']' :: rest)
      ((membersOf items).map ClassMember.ends) rest := by
  fun_induction membersOf items generalizing first with
  | case1 =>
    cases first with
    | true => exact absurd rfl (hne rfl)
    | false => exact .close
  | case2 low dash high items hdash ih =>
    obtain rfl := eq_of_isDash hdash
    have hnext := @ih false (fun _ item hitem => htail item (by simp [hitem])) (by simp)
      (fun item hitem => htail item (by simp [List.mem_of_mem_tail hitem]))
      (fun item hitem => hescape item (by simp [hitem]))
      (fun member hmember => hascending member (by simp [hmember]))
    have hle : low.char ≤ high.char := by
      have := hascending (.range low high) (by simp)
      simpa [ClassMember.isDescending] using this
    have hlow := ClassItem.setChar_expression (hescape low (by simp))
      ('-' :: (high.expression ++ (items.flatMap ClassItem.expression ++ ']' :: rest)))
    have hhigh := ClassItem.setChar_expression (hescape high (by simp))
      (items.flatMap ClassItem.expression ++ ']' :: rest)
    have hbetween := head?_flatMap_expression (htail high (by simp)) items (']' :: rest)
    have htext :
        (low :: ⟨'-', false⟩ :: high :: items).flatMap ClassItem.expression ++ ']' :: rest =
          low.expression ++
            '-' :: (high.expression ++ (items.flatMap ClassItem.expression ++ ']' :: rest)) := by
      simp [show (⟨'-', false⟩ : ClassItem).expression = ['-'] from rfl]
    have hopen' : first = false →
        ((low :: ⟨'-', false⟩ :: high :: items).flatMap ClassItem.expression ++
          ']' :: rest).head? ≠ some ']' :=
      fun hfirst => head?_flatMap_expression (hopen hfirst low (by simp)) _ _
    rw [htext] at hopen' ⊢
    rw [List.flatMap_cons, List.append_assoc] at hbetween
    exact .range hopen' hlow hbetween hhigh hle hnext
  | case3 low dash high items hdash ih =>
    refine setMembers_single (fun hfirst => hopen hfirst low (by simp)) (hescape low (by simp))
      (fun next hnext => ?_) ?_
    · obtain rfl : dash = next := by simpa using hnext
      simpa using hdash
    · exact ih (fun _ => htail) (by simp)
        (fun item hitem => htail item (List.mem_of_mem_tail hitem))
        (fun item hitem => hescape item (List.mem_cons_of_mem _ hitem))
        (fun member hmember => hascending member (List.mem_cons_of_mem _ hmember))
  | case4 item items hshort ih =>
    have hnext := @ih false (fun _ => htail) (by simp)
      (fun next hitem => htail next (List.mem_of_mem_tail hitem))
      (fun next hitem => hescape next (List.mem_cons_of_mem _ hitem))
      (fun member hmember => hascending member (List.mem_cons_of_mem _ hmember))
    cases items with
    | nil =>
      exact setMembers_single (fun hfirst => hopen hfirst item (by simp)) (hescape item (by simp))
        (by simp) hnext
    | cons last more =>
      cases more with
      | cons high more => exact absurd rfl (hshort last high more)
      | nil =>
        by_cases hdash : last.isDash = true
        · obtain rfl := eq_of_isDash hdash
          have hopen' := fun hfirst => head?_flatMap_expression (hopen hfirst item (by simp))
            [⟨'-', false⟩] (']' :: rest)
          have htext : [item, ⟨'-', false⟩].flatMap ClassItem.expression ++ ']' :: rest =
              item.expression ++ '-' :: ']' :: rest := by
            simp [show (⟨'-', false⟩ : ClassItem).expression = ['-'] from rfl]
          rw [htext] at hopen' ⊢
          exact .dash hopen' (ClassItem.setChar_expression (hescape item (by simp)) _)
        · refine setMembers_single (fun hfirst => hopen hfirst item (by simp))
            (hescape item (by simp)) (fun next hnext => ?_) hnext
          obtain rfl : last = next := by simpa using hnext
          simpa using hdash

/-- A class without a range that runs backwards is written as a set. -/
theorem isSet_expression {text after : Text} {cls : CharClass}
    (h : read? text = some (cls, after))
    (hascending : ∀ member ∈ cls.members, member.isDescending = false) :
    ∃ inner, cls.expression = '[' :: inner ∧ IsSet inner := by
  obtain ⟨hread, hcaret⟩ := read?_areReadable h
  have hmembers := @setMembers_expression true _ (by simp) (fun _ => hread.ne_nil)
    hread.plain_tail hread.not_escape hascending []
  cases hnegated : cls.negated with
  | true =>
    exact ⟨'^' :: (cls.items.flatMap ClassItem.expression ++ [']']), by simp [expression, hnegated],
      .negated hmembers⟩
  | false =>
    refine ⟨cls.items.flatMap ClassItem.expression ++ [']'], by simp [expression, hnegated],
      .plain ?_ hmembers⟩
    obtain ⟨item, items, hitems⟩ := List.exists_cons_of_ne_nil hread.ne_nil
    have hhead := hcaret hnegated
    rw [hitems] at hhead ⊢
    rw [List.flatMap_cons, List.append_assoc, Ne,
      ClassItem.head?_expression (by decide) (by decide) (by decide)]
    simpa using hhead

end CharClass

/-! ### Tokens as expressions -/

namespace Token

theorem wellFormed_append {atom quantifier rest : Text} (hatom : IsAtom atom)
    (hquantifier : IsQuantifier quantifier) (hrest : WellFormed rest) :
    WellFormed (atom ++ (quantifier ++ rest)) := by
  rw [← List.append_assoc]
  exact .cons hatom hquantifier hrest

/-- Any character of a component, as it is written. -/
theorem isAtom_inComponent : IsAtom ['[', '^', '/', ']'] :=
  .set (.negated (.single (by simp) (.plain (by decide)) (by simp) .close))

theorem isAtom_escape (c : Char) : IsAtom (escape c) := by
  unfold escape
  split
  · next h => exact .escaped (isAlphanum_of_mem_metacharacters (List.contains_iff_mem.1 h))
  · next h =>
    refine .plain fun hspecial => h ?_
    have hall : special.all metacharacters.contains = true := by decide
    exact List.all_eq_true.1 hall c hspecial

/-- The expression of a row is any character and how many of them. -/
theorem expression_row {count : Nat} (h : count ≠ 1) :
    (row count).expression =
      ['[', '^', '/', ']'] ++ '\x7b' :: (Text.ofNat count ++ ['\x7d']) := by
  unfold expression
  dsimp only
  rw [if_neg h, show "[^/]\x7b".toList = ['[', '^', '/', ']', '\x7b'] by decide,
    show "\x7d".toList = ['\x7d'] by decide]
  rfl

/-- A token that is no class, in front of a well-formed expression, makes another. -/
theorem wellFormed_expression_append {token : Token} {rest : Text} (hrest : WellFormed rest)
    (hset : ∀ cls, token = .bracket cls → ∃ inner, cls.expression = '[' :: inner ∧ IsSet inner) :
    WellFormed (token.expression ++ rest) := by
  cases token with
  | char c => exact wellFormed_append (isAtom_escape c) .once hrest
  | row count =>
    by_cases hcount : count = 1
    · rw [hcount]
      exact wellFormed_append isAtom_inComponent .once hrest
    · rw [expression_row hcount, List.append_assoc]
      exact wellFormed_append isAtom_inComponent (.count count) hrest
  | star => exact wellFormed_append isAtom_inComponent .star hrest
  | bracket cls =>
    obtain ⟨inner, hinner, hisSet⟩ := hset cls rfl
    show WellFormed (cls.expression ++ rest)
    rw [hinner]
    exact wellFormed_append (.set hisSet) .once hrest
  | span =>
    have hname : WellFormed ("[^/]+/".toList) :=
      wellFormed_append isAtom_inComponent .plus
        (wellFormed_append (.plain (by decide)) .once .nil)
    exact @wellFormed_append ['/'] _ _ (.plain (by decide)) .once
      (wellFormed_append (.group hname) .star hrest)
  | below =>
    exact @wellFormed_append ['/'] _ _ (.plain (by decide)) .once
      (wellFormed_append .any .plus hrest)

end Token

/-- The expression of a pattern is well formed if no range of it runs backwards. -/
theorem wellFormed_text {text : Text} {tokens : List Token} (h : Token.read? text = some tokens)
    (hascending : Ascending tokens) (anywhere directoryOnly : Bool) (body : Text) :
    WellFormed (Expression.text ⟨anywhere, tokens ++ ending directoryOnly body⟩) := by
  have hset : ∀ cls, Token.bracket cls ∈ tokens →
      ∃ inner, cls.expression = '[' :: inner ∧ IsSet inner := by
    intro cls hmem
    obtain ⟨-, -, -, rest, after, -, hread⟩ := Token.exists_isReadFrom h hmem
    exact CharClass.isSet_expression hread (hascending cls hmem)
  have hending : WellFormed ((ending directoryOnly body).flatMap Token.expression) := by
    unfold ending
    split
    · exact Token.wellFormed_expression_append .nil (by simp)
    · exact .nil
  have htokens : WellFormed ((tokens ++ ending directoryOnly body).flatMap Token.expression) := by
    clear h hascending
    induction tokens with
    | nil => simpa using hending
    | cons token tokens ih =>
      rw [List.cons_append, List.flatMap_cons]
      refine Token.wellFormed_expression_append
        (ih fun cls hmem => hset cls (List.mem_cons_of_mem _ hmem)) ?_
      rintro cls rfl
      exact hset cls List.mem_cons_self
  cases anywhere with
  | false => exact htokens
  | true =>
    have hfirst : WellFormed ".*/".toList :=
      Token.wellFormed_append .any .star (Token.wellFormed_append (.plain (by decide)) .once .nil)
    exact Token.wellFormed_append (.group hfirst) .option htokens

end PathRights.Pattern
