import PathRights.Proofs.Pattern.Agreement
import PathRights.Proofs.Pattern.Closing

/-! Sets in brackets as regular expressions are read: from left to right, a part at a time. A
bracket ends a set unless it comes first, a dash between two items makes a range unless the bracket
follows it, and a backslash in front of a letter or a digit has a meaning of its own.
`readSet_expression` says what a class leads to that is written as a set, and `class_read_alike`
that its end, its members and what it accepts are the same in the pattern and in the expression. -/

namespace PathRights.Pattern

namespace Notation

/-! ### Reading a set -/

/-- What stands for characters in a set: one of them, or a kind of them. -/
inductive SetItem where
  | char (c : Char)
  | kind (includes : Char → Bool)

/-- Why a text is no set. -/
inductive SetFault where
  | unopened
  | unterminated
  | badEscape
  | badRange (low high : SetItem)

/-- How a backslash in front of a letter or a digit is read, given the text behind the backslash:
what it stands for, and how many more characters than one belong to it. -/
abbrev LetterEscapes := Text → Except SetFault (SetItem × Nat)

variable (letters : LetterEscapes)

/-- Reads an item: a character by itself or behind a backslash. -/
def readItem : Text → Except SetFault (SetItem × Text)
  | [] => .error .unterminated
  | ['\\'] => .error .badEscape
  | '\\' :: c :: rest =>
    if c.isAlphanum then (letters (c :: rest)).map fun (item, more) => (item, rest.drop more)
    else .ok (.char c, rest)
  | c :: rest => .ok (.char c, rest)

/-- A part of a set: an item, or all characters from one to another. -/
inductive SetPart where
  | one (item : SetItem)
  | range (low high : Char)

/-- The range between two items, which must be characters in ascending order. -/
def SetPart.between : SetItem → SetItem → Except SetFault SetPart
  | .char low, .char high =>
    if high < low then .error (.badRange (.char low) (.char high)) else .ok (.range low high)
  | low, high => .error (.badRange low high)

/-- A dash follows that is not the last character of the set. -/
def isRangeAhead (text : Text) : Bool := text.head? == some '-' && text.tail.head? != some ']'

/-- Reads a part. -/
def readPart (text : Text) : Except SetFault (SetPart × Text) :=
  match readItem letters text with
  | .error fault => .error fault
  | .ok (low, rest) =>
    if isRangeAhead rest then
      match readItem letters rest.tail with
      | .error fault => .error fault
      | .ok (high, rest) => (SetPart.between low high).map (·, rest)
    else .ok (.one low, rest)

variable {letters} in
theorem length_readItem {text rest : Text} {item : SetItem}
    (h : readItem letters text = .ok (item, rest)) : rest.length < text.length := by
  unfold readItem at h
  split at h
  · cases h
  · cases h
  · next c rest' =>
    split at h
    · cases hletters : letters (c :: rest') with
      | error fault =>
        rw [hletters] at h
        cases h
      | ok read =>
        rw [hletters] at h
        cases h
        simp only [List.length_cons, List.length_drop]
        omega
    · cases h
      exact Nat.lt_succ_of_lt (Nat.lt_succ_self _)
  · cases h
    exact Nat.lt_succ_self _

variable {letters} in
theorem length_readPart {text rest : Text} {part : SetPart}
    (h : readPart letters text = .ok (part, rest)) : rest.length < text.length := by
  unfold readPart at h
  split at h
  · cases h
  · next low rest' hlow =>
    have hfirst := length_readItem hlow
    split at h
    · split at h
      · cases h
      · next high rest'' hhigh =>
        have hlast := length_readItem hhigh
        rw [List.length_tail] at hlast
        cases hbetween : SetPart.between low high with
        | error fault =>
          rw [hbetween] at h
          cases h
        | ok part' =>
          rw [hbetween] at h
          cases h
          omega
    · cases h
      exact hfirst

/-- Reads the parts of a set up to the bracket that ends it. -/
def readParts (first : Bool) (text : Text) : Except SetFault (List SetPart × Text) :=
  if first = false ∧ text.head? = some ']' then .ok ([], text.tail)
  else
    match _ : readPart letters text with
    | .error fault => .error fault
    | .ok (part, rest) =>
      (readParts false rest).map fun (parts, after) => (part :: parts, after)
termination_by text.length
decreasing_by exact length_readPart (by assumption)

/-- A set of characters. -/
structure CharSet where
  negated : Bool
  parts : List SetPart

/-- The item includes a character. -/
def SetItem.includes (c : Char) : SetItem → Bool
  | .char d => c == d
  | .kind includes => includes c

/-- The part includes a character. -/
def SetPart.includes (c : Char) : SetPart → Bool
  | .one item => item.includes c
  | .range low high => low ≤ c && c ≤ high

/-- The set accepts a character. -/
def CharSet.accepts (set : CharSet) (c : Char) : Bool :=
  set.parts.any (·.includes c) != set.negated

/-- Reads a set: the set, and what follows it. -/
def readSet : Text → Except SetFault (CharSet × Text)
  | '[' :: '^' :: rest =>
    (readParts letters true rest).map fun (parts, after) => (⟨true, parts⟩, after)
  | '[' :: rest =>
    (readParts letters true rest).map fun (parts, after) => (⟨false, parts⟩, after)
  | _ => .error .unopened

variable {letters}

theorem readParts_part {first : Bool} {text rest : Text} {part : SetPart}
    (hopen : first = false → text.head? ≠ some ']') (h : readPart letters text = .ok (part, rest)) :
    readParts letters first text =
      (readParts letters false rest).map fun (parts, after) => (part :: parts, after) := by
  rw [readParts, if_neg fun hclose => hopen hclose.1 hclose.2]
  split
  · next hread => cases h.symm.trans hread
  · next hread =>
    cases h.symm.trans hread
    rfl

theorem readParts_error {first : Bool} {text : Text} {fault : SetFault}
    (hopen : first = false → text.head? ≠ some ']') (h : readPart letters text = .error fault) :
    readParts letters first text = .error fault := by
  rw [readParts, if_neg fun hclose => hopen hclose.1 hclose.2]
  split
  · next hread =>
    cases h.symm.trans hread
    rfl
  · next hread => cases h.symm.trans hread

theorem readItem_of_setChar {text rest : Text} {c : Char} (h : SetChar text c rest) :
    readItem letters text = .ok (.char c, rest) := by
  cases h with
  | escaped halnum =>
    rw [readItem, halnum]
    rfl
  | plain hc =>
    rw [readItem]
    · exact fun heq _ => hc heq
    · exact fun _ _ heq _ => hc heq

end Notation

open Notation

variable {letters : LetterEscapes}

namespace CharClass

/-! ### Classes as sets -/

/-- The parts of a set that members are written as, unless a range of them runs backwards. -/
def partsOf : List ClassMember → Except SetFault (List SetPart)
  | [] => .ok []
  | .single item :: members => (partsOf members).map (.one (.char item.char) :: ·)
  | .range low high :: members =>
    match SetPart.between (.char low.char) (.char high.char) with
    | .error fault => .error fault
    | .ok part => (partsOf members).map (part :: ·)

/-- Only a dash with a member behind it makes a range. -/
theorem isRangeAhead_expression {items : List ClassItem} (h : ∀ item ∈ items, item.IsPlain)
    (rest : Text) : isRangeAhead (items.flatMap ClassItem.expression ++ ']' :: rest) = true ↔
      ∃ high more, items = ⟨'-', false⟩ :: high :: more := by
  unfold isRangeAhead
  rw [Bool.and_eq_true_iff, beq_iff_eq, bne_iff_ne]
  cases items with
  | nil => simp
  | cons next items =>
    rw [List.flatMap_cons, List.append_assoc,
      ClassItem.head?_expression (by decide) (by decide) (by decide)]
    constructor
    · rintro ⟨rfl, hopen⟩
      cases items with
      | nil => exact absurd rfl hopen
      | cons high more => exact ⟨high, more, rfl⟩
    · rintro ⟨high, more, heq⟩
      obtain ⟨rfl, rfl⟩ := List.cons.inj heq
      exact ⟨rfl, head?_flatMap_expression (h high (by simp)) more (']' :: rest)⟩

theorem readPart_single {item : ClassItem} {items : List ClassItem}
    (hescape : item.escaped = false → item.char ≠ '\\') (hplain : ∀ item ∈ items, item.IsPlain)
    (hdash : ∀ high more, items ≠ ⟨'-', false⟩ :: high :: more) (rest : Text) :
    readPart letters ((item :: items).flatMap ClassItem.expression ++ ']' :: rest) =
      .ok (.one (.char item.char), items.flatMap ClassItem.expression ++ ']' :: rest) := by
  have hahead := mt (isRangeAhead_expression hplain rest).1 fun ⟨high, more, h⟩ => hdash high more h
  unfold readPart
  rw [List.flatMap_cons, List.append_assoc,
    readItem_of_setChar (ClassItem.setChar_expression hescape _)]
  exact if_neg hahead

theorem readPart_range {low high : ClassItem} {items : List ClassItem}
    (hlow : low.escaped = false → low.char ≠ '\\') (hplain : ∀ item ∈ high :: items, item.IsPlain)
    (rest : Text) :
    readPart letters ((low :: ⟨'-', false⟩ :: high :: items).flatMap ClassItem.expression ++
        ']' :: rest) =
      (SetPart.between (.char low.char) (.char high.char)).map
        (·, items.flatMap ClassItem.expression ++ ']' :: rest) := by
  have htext : (⟨'-', false⟩ :: high :: items).flatMap ClassItem.expression ++ ']' :: rest =
      '-' :: (high.expression ++ (items.flatMap ClassItem.expression ++ ']' :: rest)) := by
    rw [List.flatMap_cons, List.flatMap_cons, List.append_assoc, List.append_assoc]
    rfl
  have hahead : isRangeAhead
      ((⟨'-', false⟩ :: high :: items).flatMap ClassItem.expression ++ ']' :: rest) = true := by
    refine (isRangeAhead_expression ?_ rest).2 ⟨high, items, rfl⟩
    intro item hitem
    rcases List.mem_cons.1 hitem with rfl | hitem
    · exact fun _ => by decide
    · exact hplain item hitem
  have hhigh : high.escaped = false → high.char ≠ '\\' := fun h => (hplain high (by simp) h).2
  unfold readPart
  rw [List.flatMap_cons, List.append_assoc,
    readItem_of_setChar (ClassItem.setChar_expression hlow _)]
  dsimp only
  rw [if_pos hahead, htext, List.tail_cons,
    readItem_of_setChar (ClassItem.setChar_expression hhigh _)]

/-- The members of a class as it is written are read as its parts, up to the first range that runs
backwards. -/
theorem readParts_expression {first : Bool} {items : List ClassItem}
    (hopen : first = false → ∀ item ∈ items, item.IsPlain) (hne : first = true → items ≠ [])
    (htail : ∀ item ∈ items.tail, item.IsPlain)
    (hescape : ∀ item ∈ items, item.escaped = false → item.char ≠ '\\') (rest : Text) :
    readParts letters first (items.flatMap ClassItem.expression ++ ']' :: rest) =
      (partsOf (membersOf items)).map (·, rest) := by
  -- a bracket ends the set only where no member is left
  have hopen' : ∀ {first : Bool} {item : ClassItem} {items : List ClassItem},
      (first = false → item.IsPlain) → first = false →
      ((item :: items).flatMap ClassItem.expression ++ ']' :: rest).head? ≠ some ']' :=
    fun hplain hfirst => head?_flatMap_expression (hplain hfirst) _ _
  fun_induction membersOf items generalizing first with
  | case1 =>
    cases first with
    | true => exact absurd rfl (hne rfl)
    | false =>
      rw [readParts]
      rfl
  | case2 low dash high items hdash ih =>
    obtain rfl := eq_of_isDash hdash
    have hplain : ∀ item ∈ high :: items, item.IsPlain := fun item hitem =>
      htail item (List.mem_cons_of_mem _ hitem)
    have hnext := @ih false (fun _ item hitem => hplain item (List.mem_cons_of_mem _ hitem))
      (by simp)
      (fun item hitem => hplain item (List.mem_cons_of_mem _ (List.mem_of_mem_tail hitem)))
      (fun item hitem => hescape item (by simp [hitem]))
    have hread := @readPart_range letters low high items (hescape low (by simp)) hplain rest
    have hfirst := @hopen' first low (⟨'-', false⟩ :: high :: items) fun hfirst =>
      hopen hfirst low (by simp)
    rw [partsOf]
    cases hbetween : SetPart.between (.char low.char) (.char high.char) with
    | error fault =>
      rw [hbetween] at hread
      exact readParts_error hfirst hread
    | ok part =>
      rw [hbetween] at hread
      rw [readParts_part hfirst hread, hnext]
      cases partsOf (membersOf items) <;> rfl
  | case3 low next high items hdash ih =>
    have hnext := @ih false (fun _ => htail) (by simp)
      (fun item hitem => htail item (List.mem_of_mem_tail hitem))
      (fun item hitem => hescape item (List.mem_cons_of_mem _ hitem))
    have hread := @readPart_single letters low (next :: high :: items) (hescape low (by simp)) htail
      (fun high' more heq => hdash (by rw [(List.cons.inj heq).1]; rfl)) rest
    rw [readParts_part (hopen' fun hfirst => hopen hfirst low (by simp)) hread, hnext, partsOf]
    cases partsOf (membersOf (next :: high :: items)) <;> rfl
  | case4 item items hshort ih =>
    have hnext := @ih false (fun _ => htail) (by simp)
      (fun next hitem => htail next (List.mem_of_mem_tail hitem))
      (fun next hitem => hescape next (List.mem_cons_of_mem _ hitem))
    have hread := @readPart_single letters item items (hescape item (by simp)) htail
      (fun high more heq => hshort _ high more heq) rest
    rw [readParts_part (hopen' fun hfirst => hopen hfirst item (by simp)) hread, hnext, partsOf]
    cases partsOf (membersOf items) <;> rfl

/-- The members make up a set that includes what they cover, if no range of them runs backwards. -/
theorem partsOf_eq_ok {members : List ClassMember}
    (h : ∀ member ∈ members, member.isDescending = false) :
    ∃ parts, partsOf members = .ok parts ∧
      ∀ c, parts.any (·.includes c) = members.any (·.covers c) := by
  induction members with
  | nil => exact ⟨[], rfl, fun _ => rfl⟩
  | cons member members ih =>
    obtain ⟨parts, hparts, hincludes⟩ := ih fun member hmem =>
      h member (List.mem_cons_of_mem _ hmem)
    cases member with
    | single item =>
      refine ⟨.one (.char item.char) :: parts, by rw [partsOf, hparts]; rfl, fun c => ?_⟩
      rw [List.any_cons, List.any_cons, hincludes c]
      rfl
    | range low high =>
      have hascending : ¬ high.char < low.char := by
        simpa [ClassMember.isDescending] using h _ List.mem_cons_self
      have hbetween : SetPart.between (.char low.char) (.char high.char) =
          .ok (.range low.char high.char) := if_neg hascending
      refine ⟨.range low.char high.char :: parts, by rw [partsOf, hbetween, hparts]; rfl,
        fun c => ?_⟩
      rw [List.any_cons, List.any_cons, hincludes c]
      rfl

/-- The first range that runs backwards is the one that is named. -/
theorem partsOf_of_badMember? {whole before : Text} {members : List ClassMember} {range : BadRange}
    (h : badMember? whole before members = some range) :
    partsOf members = .error (.badRange (.char range.low.char) (.char range.high.char)) := by
  induction members generalizing before with
  | nil => cases h
  | cons member members ih =>
    cases member with
    | single item => rw [partsOf, ih h]; rfl
    | range low high =>
      rw [badMember?] at h
      split at h
      · next hlt =>
        cases h
        have hbetween : SetPart.between (.char low.char) (.char high.char) =
            .error (.badRange (.char low.char) (.char high.char)) := if_pos hlt
        rw [partsOf, hbetween]
      · next hascending =>
        have hbetween : SetPart.between (.char low.char) (.char high.char) =
            .ok (.range low.char high.char) := if_neg hascending
        rw [partsOf, hbetween, ih h]
        rfl

/-- A class is written as a set that ends where it ends. -/
theorem readSet_expression {text after : Text} {cls : CharClass}
    (h : read? text = some (cls, after))
    (letters : LetterEscapes) (tail : Text) : readSet letters (cls.expression ++ tail) =
      (partsOf cls.members).map fun parts => (⟨cls.negated, parts⟩, tail) := by
  obtain ⟨hread, hcaret⟩ := read?_areReadable h
  have hparts := @readParts_expression letters true _ (by simp) (fun _ => hread.ne_nil)
    hread.plain_tail hread.not_escape tail
  cases hnegated : cls.negated with
  | true =>
    have htext : cls.expression ++ tail =
        '[' :: '^' :: (cls.items.flatMap ClassItem.expression ++ ']' :: tail) := by
      simp [expression, hnegated]
    rw [htext, readSet, hparts]
    cases hmembers : partsOf (membersOf cls.items) <;> simp [members, hmembers, Except.map]
  | false =>
    have htext : cls.expression ++ tail =
        '[' :: (cls.items.flatMap ClassItem.expression ++ ']' :: tail) := by
      simp [expression, hnegated]
    have hplain : (cls.items.flatMap ClassItem.expression ++ ']' :: tail).head? ≠ some '^' := by
      obtain ⟨item, items, hitems⟩ := List.exists_cons_of_ne_nil hread.ne_nil
      have hhead := hcaret hnegated
      rw [hitems] at hhead ⊢
      rw [List.flatMap_cons, List.append_assoc, Ne,
        ClassItem.head?_expression (by decide) (by decide) (by decide)]
      simpa using hhead
    rw [htext, readSet, hparts]
    · cases hmembers : partsOf (membersOf cls.items) <;> simp [members, hmembers, Except.map]
    · intro rest heq
      rw [heq] at hplain
      exact hplain rfl

/-- What an expression is when it is read as a set of some members: wherever it stands, the set ends
where the expression ends, and it accepts the given characters. If a range runs backwards, reading
the set fails at such a range. -/
structure IsReadAs (expression : Text) (members : List (Char × Char)) (accepts : Char → Bool) :
    Prop where
  ascending : (∀ member ∈ members, member.1 ≤ member.2) →
    ∃ set, (∀ letters tail, readSet letters (expression ++ tail) = .ok (set, tail)) ∧
      ∀ c, set.accepts c = accepts c
  descending : (∃ member ∈ members, member.2 < member.1) →
    ∃ member ∈ members, member.2 < member.1 ∧ ∀ letters tail,
      readSet letters (expression ++ tail) = .error (.badRange (.char member.1) (.char member.2))

theorem isDescending_eq_false_iff (member : ClassMember) :
    member.isDescending = false ↔ member.ends.1 ≤ member.ends.2 := by
  cases member with
  | single item => simp [ClassMember.isDescending, ClassMember.ends]
  | range low high => simp [ClassMember.isDescending, ClassMember.ends]

theorem isReadAs_expression {text after : Text} {cls : CharClass}
    (h : read? text = some (cls, after)) :
    IsReadAs cls.expression (cls.members.map ClassMember.ends) cls.accepts where
  ascending hascending := by
    obtain ⟨parts, hparts, hincludes⟩ := partsOf_eq_ok fun member hmem =>
      (isDescending_eq_false_iff member).2 (hascending _ (List.mem_map_of_mem hmem))
    refine ⟨⟨cls.negated, parts⟩, fun letters tail => ?_, fun c => ?_⟩
    · rw [readSet_expression h, hparts]
      rfl
    · unfold CharSet.accepts accepts
      rw [hincludes c]
  descending := by
    rintro ⟨ends, hends, hlt⟩
    obtain ⟨member, hmem, rfl⟩ := List.mem_map.1 hends
    cases hbad : badMember? [] [] cls.members with
    | none =>
      have hascending := badMember?_eq_none.1 hbad member hmem
      exact absurd hlt (Char.not_lt.2 ((isDescending_eq_false_iff member).1 hascending))
    | some range =>
      obtain ⟨hrange, hbackwards⟩ := badMember?_eq_some hbad
      refine ⟨_, List.mem_map_of_mem hrange, hbackwards, fun letters tail => ?_⟩
      rw [readSet_expression h, partsOf_of_badMember? hbad]
      rfl

/-- A class is written as no set just when a range of it runs backwards. -/
theorem unreadable_iff {text after : Text} {cls : CharClass} (h : read? text = some (cls, after)) :
    (∃ fault, ∀ letters tail, readSet letters (cls.expression ++ tail) = .error fault) ↔
      ∃ member ∈ cls.members, member.isDescending = true := by
  constructor
  · rintro ⟨fault, hfault⟩
    by_contra hascending
    push Not at hascending
    obtain ⟨set, hset, -⟩ := (isReadAs_expression h).ascending fun ends hends => by
      obtain ⟨member, hmem, rfl⟩ := List.mem_map.1 hends
      exact (isDescending_eq_false_iff member).1
        (Bool.eq_false_of_not_eq_true (hascending member hmem))
    cases (hfault (fun _ => .error .badEscape) []).symm.trans (hset _ [])
  · rintro ⟨member, hmem, hdescending⟩
    have hlt : member.ends.2 < member.ends.1 := by
      refine Char.not_le.1 fun hle => ?_
      cases hdescending.symm.trans ((isDescending_eq_false_iff member).2 hle)
    obtain ⟨_, -, -, hfault⟩ :=
      (isReadAs_expression h).descending ⟨_, List.mem_map_of_mem hmem, hlt⟩
    exact ⟨_, hfault⟩

end CharClass

/-! ### Compiling -/

theorem badRange?_eq_none {pattern : Text} {directoryOnly : Bool} {tokens : List Token} :
    (expressionWith pattern directoryOnly tokens).badRange? = none ↔ Ascending tokens :=
  badToken?_eq_none.trans ascending_ending

/-- A pattern that has a class does not accept all paths of its kind, and is not empty. -/
theorem not_matchesAll_of_bracket {pattern : Text} (h : '[' ∈ core pattern) :
    pattern ≠ [] ∧ ¬ MatchesAll pattern := by
  have hmem : '[' ∈ pattern := mem_of_mem_core h
  refine ⟨List.ne_nil_of_mem hmem, ?_⟩
  rintro (hall | ⟨-, hcore | hcore⟩)
  · have hnone : ∀ text ∈ matchAll, '[' ∉ text := by decide
    exact hnone pattern hall hmem
  · rw [hcore] at h
    cases h
  · rw [hcore] at h
    exact absurd h (by decide)

/-- A pattern does not compile because of a range just when it has tokens, and a class among them
has a range that runs backwards. -/
theorem compile_descending_iff (pattern : Text) (directoryOnly : Bool) :
    (∃ range, compile pattern directoryOnly = .error (.descendingRange pattern range)) ↔
      ∃ tokens, Token.read? (core pattern) = some tokens ∧ ¬ Ascending tokens := by
  constructor
  · rintro ⟨range, hrange⟩
    rcases compile_error hrange with ⟨heq, -⟩ | ⟨-, -, ⟨heq, -⟩ | ⟨tokens, range', hread, -, hbad⟩⟩
    · cases heq
    · cases heq
    · refine ⟨tokens, hread, fun hascending => ?_⟩
      cases hbad.symm.trans (badRange?_eq_none.2 hascending)
  · rintro ⟨tokens, hread, hnot⟩
    obtain ⟨cls, hcls⟩ : ∃ cls, Token.bracket cls ∈ tokens := by
      by_contra hnone
      exact hnot fun cls hcls => absurd ⟨cls, hcls⟩ hnone
    obtain ⟨before, text, hcore, rest, after, rfl, -⟩ := Token.exists_isReadFrom hread hcls
    obtain ⟨hne, hall⟩ := @not_matchesAll_of_bracket pattern (by simp [hcore])
    rw [compile_eq hne hall, hread]
    dsimp only
    cases hbad : (expressionWith pattern directoryOnly tokens).badRange? with
    | none => exact absurd (badRange?_eq_none.1 hbad) hnot
    | some range => exact ⟨range, rfl⟩

/-! ### One class, three readings -/

open CharClass in
/-- Wherever a bracket opens in a text, the class is read up to the first bracket that may close it,
and it is no class just when there is none. The units in between make up its members. It accepts
what they cover, or if it is negated the rest, and so does the set that it is written as, which ends
where it ends. A pattern does not compile because of a range just when a range of one of its classes
runs backwards, and that is when the class is written as no set. -/
theorem class_read_alike (body : Text) (start : Nat) (hopen : body[start]? = some '[') :
    (∀ index, closing? body start = some index ↔ IsLeast {n | ClosesAt body start n} index) ∧
    (closing? body start = none ↔ ∀ n, ¬ ClosesAt body start n) ∧
    (closing? body start = none →
      Token.read? (body.drop start) =
        (Token.read? (body.drop (start + 1))).map (.char '[' :: ·)) ∧
    (∀ index, closing? body start = some index → ∃ cls units members,
      read? (body.drop (start + 1)) = some (cls, body.drop (index + 1)) ∧
      Token.read? (body.drop start) =
        (Token.read? (body.drop (index + 1))).map (.bracket cls :: ·) ∧
      IsBetween ((body.take index).drop (start + 1)) cls.negated units ∧ HasMembers units members ∧
      (∀ c, cls.accepts c = true ↔ (Covers members c ↔ cls.negated = false)) ∧
      IsReadAs cls.expression members cls.accepts) ∧
    (∀ pattern directoryOnly, core pattern = body →
      ((∃ range, compile pattern directoryOnly = .error (.descendingRange pattern range)) ↔
        ∃ tokens, Token.read? body = some tokens ∧ ¬ Ascending tokens)) ∧
    ∀ tokens cls, Token.read? body = some tokens → .bracket cls ∈ tokens →
      ((∃ fault, ∀ letters tail, readSet letters (cls.expression ++ tail) = .error fault) ↔
        ∃ member ∈ cls.members, member.isDescending = true) := by
  obtain ⟨hlt, hget⟩ := List.getElem?_eq_some_iff.1 hopen
  have hbody : body.drop start = '[' :: body.drop (start + 1) := by
    rw [List.drop_eq_getElem_cons hlt, hget]
  rw [hbody]
  refine ⟨fun _ => closing?_eq_some_iff, closing?_eq_none_iff, fun hnone => ?_, fun index h => ?_,
    ?_, ?_⟩
  · exact Token.read?_opening (Option.map_eq_none_iff.1 hnone)
  · obtain ⟨cls, units, hread, hbetween, hitems⟩ := read?_of_closing? h
    have hmembers : cls.members = membersOf (units.map .ofPiece) := congrArg membersOf hitems
    refine ⟨cls, units, cls.members.map ClassMember.ends, hread, Token.read?_bracket hread,
      hbetween, ?_, accepts_iff_covers cls, isReadAs_expression hread⟩
    exact hasMembers_iff.2 (congrArg _ hmembers)
  · rintro pattern directoryOnly rfl
    exact compile_descending_iff pattern directoryOnly
  · intro tokens cls htokens hcls
    obtain ⟨-, -, -, rest, after, -, hread⟩ := Token.exists_isReadFrom htokens hcls
    exact unreadable_iff hread

open CharClass in
/-- A negated class of a bracket, a bracket behind a backslash, and a range up to the dash. -/
theorem class_read_alike_bracketMembers :
    "x[!]\\]+--]y".toList[1]? = some '[' ∧
      IsLeast {n | ClosesAt "x[!]\\]+--]y" 1 n} 9 ∧
      ∃ cls set, read? "!]\\]+--]y" = some (cls, "y".toList) ∧
        (∀ letters tail, readSet letters (cls.expression ++ tail) = .ok (set, tail)) ∧
        set.accepts 'y' = true ∧ set.accepts ']' = false ∧ set.accepts ',' = false := by
  have hopen : "x[!]\\]+--]y".toList[1]? = some '[' := rfl
  obtain ⟨hclosing, -, -, hclass, -⟩ := class_read_alike "x[!]\\]+--]y" 1 hopen
  have hindex : closing? "x[!]\\]+--]y" 1 = some 9 := by decide
  obtain ⟨cls, units, members, hread, -, hbetween, hmembers, -, hset⟩ := hclass 9 hindex
  obtain rfl : cls = ⟨true,
    [⟨']', false⟩, ⟨']', true⟩, ⟨'+', false⟩, ⟨'-', false⟩, ⟨'-', false⟩]⟩ := by
    cases hread
    rfl
  change IsBetween ['!', ']', '\\', ']', '+', '-', '-'] true units at hbetween
  cases hbetween with
  | negated _ hunits =>
    cases hunits
    obtain rfl := hasMembers_iff.1 hmembers
    obtain ⟨set, hread, haccepts⟩ := hset.ascending (by decide)
    refine ⟨hopen, (hclosing 9).1 hindex, _, set, rfl, hread, ?_⟩
    rw [haccepts, haccepts, haccepts]
    decide

end PathRights.Pattern
