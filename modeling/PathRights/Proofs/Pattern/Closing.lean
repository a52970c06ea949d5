import Mathlib.Order.Bounds.Basic
import PathRights.Proofs.Pattern.Form
import PathRights.Proofs.Pattern.Notation

/-! Where a class ends, and what stands between its brackets. The bracket that closes a class is
found by its place alone: it is no half of a pair of a backslash and a character, and no first
member. `closing?_eq_some_iff` says that a class is read up to the first such bracket. What is in
front of it is a mark of negation or none, and units; `hasMembers_iff` says which characters and
ranges they make up. -/

namespace PathRights.Pattern

theorem textOf_ne_nil {units : List Piece} (h : units ≠ []) : textOf units ≠ [] := by
  obtain ⟨unit, units, rfl⟩ := List.exists_cons_of_ne_nil h
  cases unit <;> exact List.cons_ne_nil _ _

/-- Units are read again in a text that begins with them. -/
theorem pieces_textOf_append {units : List Piece} (hpaired : .plain '\\' ∉ units) (more : Text) :
    pieces (textOf units ++ more) = (pieces more).map (units ++ ·) := by
  induction units with
  | nil => simp [textOf]
  | cons unit units ih =>
    obtain ⟨hunit, hunits⟩ := not_or.1 (mt List.mem_cons.2 hpaired)
    cases unit with
    | plain c =>
      rw [textOf, List.cons_append, pieces_cons (by simpa [eq_comm] using hunit), ih hunits,
        Option.map_map]
      rfl
    | pair c =>
      rw [textOf, List.cons_append, List.cons_append, pieces, ih hunits, Option.map_map]
      rfl

theorem head?_textOf {c : Char} (hc : c ≠ '\\') (unit : Piece) (units : List Piece) (more : Text) :
    (textOf (unit :: units) ++ more).head? = some c ↔ unit = .plain c := by
  cases unit with
  | plain d => simp [textOf]
  | pair d => simpa [textOf] using hc.symm

/-- The character that a unit stands for in a class. -/
def Piece.char : Piece → Char
  | .plain c | .pair c => c

/-- A unit as a member of a class. -/
def ClassItem.ofPiece : Piece → ClassItem
  | .plain c => ⟨c, false⟩
  | .pair c => ⟨c, true⟩

@[simp] theorem ClassItem.char_ofPiece (unit : Piece) : (ofPiece unit).char = unit.char := by
  cases unit <;> rfl

theorem ClassItem.isDash_ofPiece {unit : Piece} :
    (ofPiece unit).isDash = true ↔ unit = .plain '-' := by
  cases unit <;> simp [ofPiece, isDash]

namespace CharClass

/-! ### Reading by units -/

theorem readItems_cons {c : Char} {text : Text} (hbracket : c ≠ ']') (hescape : c ≠ '\\') :
    readItems (c :: text) =
      (readItems text).map fun (items, after) => (⟨c, false⟩ :: items, after) := by
  rw [readItems]
  · exact hbracket
  · exact fun _ _ e => absurd e hescape

/-- A bracket that is no half of a pair ends what is read, if no other one did before. -/
theorem isSome_readItems_textOf {units : List Piece}
    (hpaired : .plain '\\' ∉ units) (after : Text) :
    (readItems (textOf units ++ ']' :: after)).isSome = true := by
  induction units with
  | nil => rfl
  | cons unit units ih =>
    have hread := ih (mt (List.mem_cons_of_mem _) hpaired)
    cases unit with
    | pair c => exact (isSome_readItems_escaped c _).trans hread
    | plain c =>
      by_cases hbracket : c = ']'
      · rw [hbracket]
        rfl
      · have hescape : c ≠ '\\' := by
          rintro rfl
          exact hpaired List.mem_cons_self
        rw [textOf, List.cons_append, readItems_cons hbracket hescape, Option.isSome_map]
        exact hread

theorem exists_units_of_readItems {text after : Text} {items : List ClassItem}
    (h : readItems text = some (items, after)) :
    ∃ units, text = textOf units ++ ']' :: after ∧ .plain '\\' ∉ units ∧ .plain ']' ∉ units ∧
      items = units.map .ofPiece := by
  fun_induction readItems text generalizing items with
  | case1 => cases h
  | case2 rest =>
    cases h
    exact ⟨[], rfl, List.not_mem_nil, List.not_mem_nil, rfl⟩
  | case3 c rest ih =>
    obtain ⟨⟨items', after'⟩, hrest, heq⟩ := Option.map_eq_some_iff.1 h
    cases heq
    obtain ⟨units, rfl, hpaired, hbracket, rfl⟩ := ih hrest
    exact ⟨.pair c :: units, rfl, by simpa using hpaired, by simpa using hbracket, rfl⟩
  | case4 c rest hc hescape ih =>
    obtain ⟨⟨items', after'⟩, hrest, heq⟩ := Option.map_eq_some_iff.1 h
    cases heq
    obtain ⟨units, rfl, hpaired, hbracket, rfl⟩ := ih hrest
    have hne : c ≠ '\\' := by
      rintro rfl
      obtain ⟨d, more, hmore⟩ : ∃ d more, textOf units ++ ']' :: after = d :: more :=
        List.exists_cons_of_ne_nil (by simp)
      exact hescape d more rfl hmore
    have hunit : ∀ d, d ≠ c → Piece.plain d ∉ units → Piece.plain d ∉ .plain c :: units :=
      fun d hd hmem => by simp [hd, hmem]
    exact ⟨.plain c :: units, rfl, hunit _ hne.symm hpaired, hunit _ (Ne.symm hc) hbracket, rfl⟩

/-- The first member may be a bracket. -/
theorem isSome_readMembers_textOf {units : List Piece} (hne : units ≠ [])
    (hpaired : .plain '\\' ∉ units) (after : Text) :
    (readMembers (textOf units ++ ']' :: after)).isSome = true := by
  obtain ⟨unit, units, rfl⟩ := List.exists_cons_of_ne_nil hne
  by_cases hunit : unit = .plain ']'
  · rw [hunit, textOf, List.cons_append, readMembers, Option.isSome_map]
    exact isSome_readItems_textOf (mt (List.mem_cons_of_mem _) hpaired) after
  · rw [readMembers_of_head?_ne (mt (head?_textOf (by decide) _ _ _).1 hunit)]
    exact isSome_readItems_textOf hpaired after

theorem exists_units_of_readMembers {text after : Text} {items : List ClassItem}
    (h : readMembers text = some (items, after)) :
    ∃ unit units, text = textOf (unit :: units) ++ ']' :: after ∧ .plain '\\' ∉ unit :: units ∧
      .plain ']' ∉ units ∧ items = (unit :: units).map .ofPiece := by
  unfold readMembers at h
  split at h
  · obtain ⟨⟨items', after'⟩, hrest, heq⟩ := Option.map_eq_some_iff.1 h
    cases heq
    obtain ⟨units, rfl, hpaired, hbracket, rfl⟩ := exists_units_of_readItems hrest
    exact ⟨.plain ']', units, rfl, by simpa using hpaired, hbracket, rfl⟩
  · next hfirst =>
    obtain ⟨units, rfl, hpaired, hbracket, rfl⟩ := exists_units_of_readItems h
    cases units with
    | nil => exact absurd rfl (hfirst after)
    | cons unit units =>
      exact ⟨unit, units, rfl, hpaired, mt (List.mem_cons_of_mem _) hbracket, rfl⟩

/-! ### The closing bracket -/

/-- A text behind an opening bracket begins with a mark of negation. -/
def isMarked (text : Text) : Bool := text.head? == some '!' || text.head? == some '^'

theorem read?_eq (text : Text) : read? text =
    (readMembers (text.drop (isMarked text).toNat)).map fun (items, after) =>
      (⟨isMarked text, items⟩, after) := by
  unfold read?
  split
  · rfl
  · rfl
  · next hbang hcaret =>
    have hmark : isMarked text = false := by
      unfold isMarked
      rw [Bool.or_eq_false_iff, beq_eq_false_iff_ne, beq_eq_false_iff_ne]
      constructor <;> intro hhead <;> obtain ⟨rest, rfl⟩ := List.head?_eq_some_iff.1 hhead
      · exact hbang rest rfl
      · exact hcaret rest rfl
    rw [hmark]
    rfl

/-- Where the first member of the class stands that opens at `start`: behind the bracket, and behind
a mark of negation. -/
def firstMember (body : Text) (start : Nat) : Nat :=
  start + 1 + (isMarked (body.drop (start + 1))).toNat

/-- At the index stands a bracket that may close the class that opens at `start`: it is behind the
first member, and what is between it and the start of the members is made of whole units, so that no
backslash in front of the bracket is left to make a pair with it. -/
structure ClosesAt (body : Text) (start index : Nat) : Prop where
  bracket : body[index]? = some ']'
  behind : firstMember body start < index
  unpaired : ∃ units, pieces ((body.take index).drop (firstMember body start)) = some units

/-- Where the class closes that opens at `start`. -/
def closing? (body : Text) (start : Nat) : Option Nat :=
  (read? (body.drop (start + 1))).map fun (_, after) => body.length - after.length - 1

variable {body : Text} {start index : Nat}

/-- A bracket may close the class just when units, and at least one, are between it and the start of
the members. -/
theorem closesAt_iff : ClosesAt body start index ↔ ∃ units after, units ≠ [] ∧ .plain '\\' ∉ units ∧
    body.drop (firstMember body start) = textOf units ++ ']' :: after ∧
    index = firstMember body start + (textOf units).length := by
  generalize hfirst : firstMember body start = first
  constructor
  · rintro ⟨hbracket, hbehind, units, hunits⟩
    rw [hfirst] at hbehind hunits
    obtain ⟨htext, hpaired⟩ := pieces_eq_some_iff.1 hunits
    obtain ⟨hlt, hget⟩ := List.getElem?_eq_some_iff.1 hbracket
    have hlength : (textOf units).length = index - first := by
      rw [htext, List.length_drop, List.length_take]
      omega
    refine ⟨units, body.drop (index + 1), ?_, hpaired, ?_, by omega⟩
    · rintro rfl
      simp only [textOf, List.length_nil] at hlength
      omega
    · calc body.drop first = (body.take index ++ body.drop index).drop first := by
            rw [List.take_append_drop]
        _ = textOf units ++ body.drop index := by
            rw [List.drop_append_of_le_length (by rw [List.length_take]; omega), htext]
        _ = textOf units ++ ']' :: body.drop (index + 1) := by
            rw [List.drop_eq_getElem_cons hlt, hget]
  · rintro ⟨units, after, hne, hpaired, hbody, rfl⟩
    have hpositive : 0 < (textOf units).length := List.length_pos_iff.2 (textOf_ne_nil hne)
    refine ⟨?_, by omega, units, ?_⟩
    · rw [← List.getElem?_drop, hbody]
      simp
    · rw [hfirst, List.drop_take, hbody, Nat.add_sub_cancel_left, List.take_left]
      exact pieces_eq_some_iff.2 ⟨rfl, hpaired⟩

theorem closing?_eq : closing? body start =
    (readMembers (body.drop (firstMember body start))).map fun (_, after) =>
      body.length - after.length - 1 := by
  unfold closing? firstMember
  rw [read?_eq, Option.map_map, List.drop_drop]
  rfl

theorem isSome_closing? (h : ClosesAt body start index) : (closing? body start).isSome = true := by
  obtain ⟨units, after, hne, hpaired, hbody, -⟩ := closesAt_iff.1 h
  rw [closing?_eq, Option.isSome_map, hbody]
  exact isSome_readMembers_textOf hne hpaired after

/-- What is read of a class: its units, of which none but the first is a bracket. -/
theorem exists_units_of_closing? (h : closing? body start = some index) :
    ∃ unit units after,
      body.drop (firstMember body start) = textOf (unit :: units) ++ ']' :: after ∧
      .plain '\\' ∉ unit :: units ∧ .plain ']' ∉ units ∧
      index = firstMember body start + (textOf (unit :: units)).length := by
  rw [closing?_eq] at h
  obtain ⟨⟨items, after⟩, hread, rfl⟩ := Option.map_eq_some_iff.1 h
  obtain ⟨unit, units, hbody, hpaired, hbracket, -⟩ := exists_units_of_readMembers hread
  refine ⟨unit, units, after, hbody, hpaired, hbracket, ?_⟩
  have hlength := congrArg List.length hbody
  rw [List.length_drop, List.length_append, List.length_cons] at hlength
  dsimp only
  omega

theorem isLeast_of_closing? (h : closing? body start = some index) :
    IsLeast {n | ClosesAt body start n} index := by
  obtain ⟨unit, units, after, hbody, hpaired, hbracket, rfl⟩ := exists_units_of_closing? h
  refine ⟨closesAt_iff.2 ⟨_, after, List.cons_ne_nil _ _, hpaired, hbody, rfl⟩, fun n hn => ?_⟩
  obtain ⟨before, after', hne, hpaired', hbody', rfl⟩ := closesAt_iff.1 hn
  -- an earlier bracket would be one of the units behind the first
  refine Nat.add_le_add_left (Nat.le_of_not_lt fun hlt => hbracket ?_) _
  obtain ⟨more, hmore⟩ : ∃ more, textOf (unit :: units) = textOf before ++ ']' :: more := by
    rcases List.append_eq_append_iff.1 (hbody.symm.trans hbody') with
      ⟨rest, hrest, -⟩ | ⟨rest, hrest, htail⟩
    · rw [hrest, List.length_append] at hlt
      omega
    · cases rest with
      | nil =>
        rw [hrest, List.append_nil] at hlt
        exact absurd hlt (Nat.lt_irrefl _)
      | cons c rest =>
        obtain ⟨rfl, -⟩ := List.cons.inj htail
        exact ⟨rest, hrest⟩
  have hunits := pieces_eq_some_iff.2 ⟨rfl, hpaired⟩
  rw [hmore, pieces_textOf_append hpaired', pieces_cons (by decide), Option.map_map] at hunits
  obtain ⟨rest, -, hrest⟩ := Option.map_eq_some_iff.1 hunits
  obtain ⟨first, before, rfl⟩ := List.exists_cons_of_ne_nil hne
  rw [← (List.cons.inj hrest).2]
  exact List.mem_append_right _ List.mem_cons_self

/-- A class closes at the first bracket that may close it. -/
theorem closing?_eq_some_iff :
    closing? body start = some index ↔ IsLeast {n | ClosesAt body start n} index := by
  refine ⟨isLeast_of_closing?, fun hleast => ?_⟩
  obtain ⟨index', h⟩ := Option.isSome_iff_exists.1 (isSome_closing? hleast.1)
  rw [h, (isLeast_of_closing? h).unique hleast]

/-- A class does not close just when there is no bracket that may close it. -/
theorem closing?_eq_none_iff : closing? body start = none ↔ ∀ n, ¬ ClosesAt body start n := by
  constructor
  · intro h n hn
    have hsome := isSome_closing? hn
    rw [h] at hsome
    cases hsome
  · intro h
    refine Option.eq_none_iff_forall_ne_some.2 fun index hindex => ?_
    exact h index (isLeast_of_closing? hindex).1

/-! ### Between the brackets -/

/-- What stands between the brackets of a class: units, with a mark of negation in front if it is
`negated`. -/
inductive IsBetween : (inner : Text) → (negated : Bool) → List Piece → Prop
  | plain {inner : Text} {units : List Piece} (hmark : inner.head? ∉ [some '!', some '^'])
      (h : pieces inner = some units) : IsBetween inner false units
  | negated {mark : Char} {inner : Text} {units : List Piece} (hmark : mark ∈ ['!', '^'])
      (h : pieces inner = some units) : IsBetween (mark :: inner) true units

/-- The members that units make up, by their ends. A plain dash between two units makes them the
ends of a range, and what follows a range starts anew. -/
inductive HasMembers : List Piece → List (Char × Char) → Prop
  | nil : HasMembers [] []
  | range {low high : Piece} {units : List Piece} {members : List (Char × Char)}
      (h : HasMembers units members) :
      HasMembers (low :: .plain '-' :: high :: units) ((low.char, high.char) :: members)
  | single {unit : Piece} {units : List Piece} {members : List (Char × Char)}
      (hdash : ∀ high more, units ≠ .plain '-' :: high :: more) (h : HasMembers units members) :
      HasMembers (unit :: units) ((unit.char, unit.char) :: members)

/-- Some member covers a character. -/
def Covers (members : List (Char × Char)) (c : Char) : Prop :=
  ∃ member ∈ members, member.1 ≤ c ∧ c ≤ member.2

theorem hasMembers_membersOf : ∀ units : List Piece,
    HasMembers units ((membersOf (units.map .ofPiece)).map ClassMember.ends)
  | [] => .nil
  | [unit] => by
    cases unit <;> exact .single (by simp) .nil
  | [unit, next] => by
    have hnext := hasMembers_membersOf [next]
    cases unit <;> exact .single (by simp) hnext
  | low :: dash :: high :: units => by
    rw [List.map_cons, List.map_cons, List.map_cons, membersOf]
    split
    · next hdash =>
      obtain rfl := ClassItem.isDash_ofPiece.1 hdash
      simpa [ClassMember.ends] using HasMembers.range (hasMembers_membersOf units)
    · next hdash =>
      have hrest := hasMembers_membersOf (dash :: high :: units)
      have halone : HasMembers (low :: dash :: high :: units) ((low.char, low.char) :: _) :=
        .single (fun _ _ heq => hdash (ClassItem.isDash_ofPiece.2 (List.cons.inj heq).1)) hrest
      simpa [ClassMember.ends] using halone

theorem HasMembers.unique {units : List Piece} {members members' : List (Char × Char)}
    (h : HasMembers units members) (h' : HasMembers units members') : members = members' := by
  induction h generalizing members' with
  | nil =>
    cases h'
    rfl
  | range _ ih =>
    cases h' with
    | range h' => rw [ih h']
    | single hdash => exact absurd rfl (hdash _ _)
  | single hdash _ ih =>
    cases h' with
    | range => exact absurd rfl (hdash _ _)
    | single _ h' => rw [ih h']

/-- Units make up the members of the class that is read from them, and no others. -/
theorem hasMembers_iff {units : List Piece} {members : List (Char × Char)} :
    HasMembers units members ↔
      members = (membersOf (units.map .ofPiece)).map ClassMember.ends :=
  ⟨fun h => h.unique (hasMembers_membersOf units), fun h => h ▸ hasMembers_membersOf units⟩

theorem covers_ends {members : List ClassMember} {c : Char} :
    members.any (·.covers c) = true ↔ Covers (members.map ClassMember.ends) c := by
  rw [List.any_eq_true]
  unfold Covers
  constructor
  · rintro ⟨member, hmem, hcovers⟩
    refine ⟨_, List.mem_map_of_mem hmem, ?_⟩
    cases member with
    | single item =>
      obtain rfl : c = item.char := beq_iff_eq.1 hcovers
      exact ⟨Char.le_refl _, Char.le_refl _⟩
    | range low high => simpa [ClassMember.covers, ClassMember.ends] using hcovers
  · rintro ⟨ends, hmem, hlow, hhigh⟩
    obtain ⟨member, hmember, rfl⟩ := List.mem_map.1 hmem
    refine ⟨member, hmember, ?_⟩
    cases member with
    | single item => exact beq_iff_eq.2 (Char.le_antisymm hhigh hlow)
    | range low high => exact Bool.and_eq_true_iff.2 ⟨decide_eq_true hlow, decide_eq_true hhigh⟩

/-- A class accepts the characters that its members cover, or if it is negated the others. -/
theorem accepts_iff_covers (cls : CharClass) (c : Char) :
    cls.accepts c = true ↔ (Covers (cls.members.map ClassMember.ends) c ↔ cls.negated = false) := by
  rw [← covers_ends]
  unfold accepts
  cases cls.members.any (·.covers c) <;> cases cls.negated <;> simp

/-- A class is read from the text between its brackets. -/
theorem exists_between {text after : Text} {cls : CharClass} (h : read? text = some (cls, after)) :
    ∃ inner units, text = inner ++ ']' :: after ∧ IsBetween inner cls.negated units ∧
      cls.items = units.map .ofPiece := by
  rw [read?_eq] at h
  obtain ⟨⟨items, after'⟩, hread, heq⟩ := Option.map_eq_some_iff.1 h
  cases heq
  obtain ⟨unit, units, htext, hpaired, -, rfl⟩ := exists_units_of_readMembers hread
  have hunits := pieces_eq_some_iff.2 ⟨rfl, hpaired⟩
  cases hmark : isMarked text with
  | true =>
    rw [hmark, Bool.toNat_true, List.drop_one] at htext
    cases text with
    | nil => cases hmark
    | cons mark rest =>
      refine ⟨mark :: textOf (unit :: units), _, congrArg (mark :: ·) htext, ?_, rfl⟩
      exact .negated (by simpa [isMarked] using hmark) hunits
  | false =>
    rw [hmark, Bool.toNat_false, List.drop_zero] at htext
    refine ⟨textOf (unit :: units), _, htext, .plain ?_ hunits, rfl⟩
    obtain ⟨c, rest, hcons⟩ :=
      List.exists_cons_of_ne_nil (textOf_ne_nil (List.cons_ne_nil unit units))
    rw [htext, hcons] at hmark
    rw [hcons]
    simpa [isMarked] using hmark

/-- The class that closes at an index is read from what stands between its brackets. -/
theorem read?_of_closing? (h : closing? body start = some index) :
    ∃ cls units, read? (body.drop (start + 1)) = some (cls, body.drop (index + 1)) ∧
      IsBetween ((body.take index).drop (start + 1)) cls.negated units ∧
      cls.items = units.map .ofPiece := by
  obtain ⟨⟨cls, after⟩, hread, rfl⟩ := Option.map_eq_some_iff.1 h
  obtain ⟨inner, units, htext, hbetween, hitems⟩ := exists_between hread
  have hlength := congrArg List.length htext
  rw [List.length_drop, List.length_append, List.length_cons] at hlength
  have hindex : body.length - after.length - 1 = start + 1 + inner.length := by omega
  dsimp only
  rw [hindex]
  refine ⟨cls, units, ?_, ?_, hitems⟩
  · have hafter : body.drop (start + 1 + (inner.length + 1)) = after := by
      rw [← List.drop_drop, htext]
      simp
    rw [Nat.add_assoc, hafter, hread]
  · rwa [List.drop_take, htext, Nat.add_sub_cancel_left, List.take_left]

end CharClass

end PathRights.Pattern
