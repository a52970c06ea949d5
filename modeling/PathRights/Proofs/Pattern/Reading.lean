import Mathlib.Data.List.Basic
import PathRights.Pattern.Grammar
import PathRights.Pattern.Matcher

/-! How patterns are read. A class takes a beginning of the text up to and with its closing bracket,
and its members are the characters in between. A `**` is misplaced when it is not a whole component:
`misplaces` finds out by one pass over the text, and whether there are tokens at all depends on
nothing else. -/

namespace PathRights.Pattern

/-! ### Classes -/

namespace CharClass

/-- Members of a class end at a bracket, and what follows the bracket plays no part in them. Every
character in front of the bracket is a member, but for backslashes. -/
theorem readItems_local {text after : Text} {items : List ClassItem}
    (h : readItems text = some (items, after)) :
    ∃ inner, text = inner ++ ']' :: after ∧
      (∀ other, readItems (inner ++ ']' :: other) = some (items, other)) ∧
      ∀ c, c ≠ '\\' → inner.count c = (items.map ClassItem.char).count c := by
  fun_induction readItems text generalizing items with
  | case1 => simp at h
  | case2 rest =>
    simp only [Option.some.injEq, Prod.mk.injEq] at h
    obtain ⟨rfl, rfl⟩ := h
    exact ⟨[], by simp, by simp [readItems], by simp⟩
  | case3 c rest ih =>
    obtain ⟨⟨items', after'⟩, hrest, heq⟩ := Option.map_eq_some_iff.1 h
    simp only [Prod.mk.injEq] at heq
    obtain ⟨rfl, rfl⟩ := heq
    obtain ⟨inner, rfl, hlocal, hcount⟩ := ih hrest
    refine ⟨'\\' :: c :: inner, rfl, fun other => ?_, fun d hd => ?_⟩
    · simp [readItems, hlocal other]
    · rw [List.count_cons_of_ne (Ne.symm hd), List.map_cons, List.count_cons, List.count_cons,
        hcount d hd]
  | case4 c rest hbracket hslash ih =>
    obtain ⟨⟨items', after'⟩, hrest, heq⟩ := Option.map_eq_some_iff.1 h
    simp only [Prod.mk.injEq] at heq
    obtain ⟨rfl, rfl⟩ := heq
    obtain ⟨inner, rfl, hlocal, hcount⟩ := ih hrest
    have hne : c ≠ '\\' := by
      rintro rfl
      cases inner with
      | nil => exact hslash _ _ rfl rfl
      | cons d inner => exact hslash _ _ rfl rfl
    refine ⟨c :: inner, rfl, fun other => ?_, fun d hd => ?_⟩
    · rw [List.cons_append, readItems, hlocal other]
      · rfl
      · exact hbracket
      · exact fun _ _ e => absurd e hne
    · rw [List.map_cons, List.count_cons, List.count_cons, hcount d hd]

theorem readMembers_local {text after : Text} {items : List ClassItem}
    (h : readMembers text = some (items, after)) :
    items ≠ [] ∧ ∃ inner, text = inner ++ ']' :: after ∧
      (∀ other, readMembers (inner ++ ']' :: other) = some (items, other)) ∧
      ∀ c, c ≠ '\\' → inner.count c = (items.map ClassItem.char).count c := by
  unfold readMembers at h
  split at h
  · obtain ⟨⟨items', after'⟩, hrest, heq⟩ := Option.map_eq_some_iff.1 h
    simp only [Prod.mk.injEq] at heq
    obtain ⟨rfl, rfl⟩ := heq
    obtain ⟨inner, rfl, hlocal, hcount⟩ := readItems_local hrest
    refine ⟨by simp, ']' :: inner, rfl, fun other => ?_, fun d hd => ?_⟩
    · simp [readMembers, hlocal other]
    · rw [List.map_cons, List.count_cons, List.count_cons, hcount d hd]
  · next hfirst =>
    obtain ⟨inner, rfl, hlocal, hcount⟩ := readItems_local h
    have hinner : inner ≠ [] := by
      rintro rfl
      exact hfirst _ rfl
    obtain ⟨d, inner, rfl⟩ := List.exists_cons_of_ne_nil hinner
    refine ⟨?_, d :: inner, rfl, fun other => ?_, hcount⟩
    · rintro rfl
      unfold readItems at h
      split at h <;> simp_all
    · rw [← hlocal other, List.cons_append, readMembers]
      exact fun _ e => hfirst _ (by rw [List.cons_append, (List.cons.inj e).1])

/-- A class ends at a bracket, and what follows the bracket plays no part in it. Every character in
front of the bracket is a member, but for backslashes and marks of negation. -/
theorem read?_local {text after : Text} {cls : CharClass} (h : read? text = some (cls, after)) :
    cls.items ≠ [] ∧ ∃ inner, text = inner ++ ']' :: after ∧
      (∀ other, read? (inner ++ ']' :: other) = some (cls, other)) ∧
      ∀ c, c ≠ '\\' → c ≠ '!' → c ≠ '^' →
        inner.count c = (cls.items.map ClassItem.char).count c := by
  unfold read? at h
  split at h
  · obtain ⟨⟨items, after'⟩, hrest, heq⟩ := Option.map_eq_some_iff.1 h
    simp only [Prod.mk.injEq] at heq
    obtain ⟨rfl, rfl⟩ := heq
    obtain ⟨hitems, inner, rfl, hlocal, hcount⟩ := readMembers_local hrest
    refine ⟨hitems, '!' :: inner, rfl, fun other => ?_, fun d hd hmark _ => ?_⟩
    · simp [read?, hlocal other]
    · rw [List.count_cons_of_ne (Ne.symm hmark), hcount d hd]
  · obtain ⟨⟨items, after'⟩, hrest, heq⟩ := Option.map_eq_some_iff.1 h
    simp only [Prod.mk.injEq] at heq
    obtain ⟨rfl, rfl⟩ := heq
    obtain ⟨hitems, inner, rfl, hlocal, hcount⟩ := readMembers_local hrest
    refine ⟨hitems, '^' :: inner, rfl, fun other => ?_, fun d hd _ hmark => ?_⟩
    · simp [read?, hlocal other]
    · rw [List.count_cons_of_ne (Ne.symm hmark), hcount d hd]
  · next hbang hcaret =>
    obtain ⟨⟨items, after'⟩, hrest, heq⟩ := Option.map_eq_some_iff.1 h
    simp only [Prod.mk.injEq] at heq
    obtain ⟨rfl, rfl⟩ := heq
    obtain ⟨hitems, inner, rfl, hlocal, hcount⟩ := readMembers_local hrest
    refine ⟨hitems, inner, rfl, fun other => ?_, fun d hd _ _ => hcount d hd⟩
    cases inner with
    | nil => simp [read?, show readMembers (']' :: other) = _ from hlocal other]
    | cons d inner =>
      rw [read?, hlocal other]
      · rfl
      · exact fun _ e => hbang _ (by rw [List.cons_append, (List.cons.inj e).1])
      · exact fun _ e => hcaret _ (by rw [List.cons_append, (List.cons.inj e).1])

/-- A class that closes within a text closes at the same place in every longer text. -/
theorem read?_append {text after : Text} {cls : CharClass} (h : read? text = some (cls, after))
    (more : Text) : read? (text ++ more) = some (cls, after ++ more) := by
  obtain ⟨-, inner, rfl, hlocal, -⟩ := read?_local h
  simpa using hlocal (after ++ more)

/-- A class that has no `/` in it closes in front of the next `/`. -/
theorem read?_component {text after more : Text} {cls : CharClass}
    (h : read? (text ++ more) = some (cls, after)) (hslash : ∀ item ∈ cls.items, item.char ≠ '/')
    (hmore : more = [] ∨ more.head? = some '/') :
    ∃ rest, read? text = some (cls, rest) ∧ after = rest ++ more := by
  obtain ⟨-, inner, heq, hlocal, hcount⟩ := read?_local h
  have hinner : '/' ∉ inner := by
    rw [← List.count_eq_zero, hcount '/' (by decide) (by decide) (by decide),
      List.count_eq_zero]
    simpa using hslash
  rcases List.append_eq_append_iff.1 heq with ⟨between, rfl, hbetween⟩ | ⟨between, rfl, hbetween⟩
  · rcases hmore with rfl | hmore
    · obtain ⟨rfl, hcons⟩ := List.append_eq_nil_iff.1 hbetween.symm
      cases hcons
    · cases between with
      | nil => simp [hbetween] at hmore
      | cons d between =>
        rw [hbetween] at hmore
        simp only [List.cons_append, List.head?_cons, Option.some.injEq] at hmore
        simp [hmore] at hinner
  · cases between with
    | nil =>
      rcases hmore with rfl | hmore
      · simp at hbetween
      · rw [List.nil_append] at hbetween
        simp [← hbetween] at hmore
    | cons d between =>
      simp only [List.cons_append, List.cons.injEq] at hbetween
      obtain ⟨rfl, rfl⟩ := hbetween
      exact ⟨between, hlocal between, rfl⟩

/-- What passes from a text to what follows its first character, or its first two if the first is
a backslash, passes to the bracket at which a class closes. -/
theorem readItems_close {P : Text → Prop}
    (hcons : ∀ c rest, (∀ d more, c = '\\' → rest = d :: more → False) → P (c :: rest) → P rest)
    (hescaped : ∀ c rest, P ('\\' :: c :: rest) → P rest) {text after : Text}
    {items : List ClassItem} (h : readItems text = some (items, after)) (hp : P text) :
    P (']' :: after) := by
  fun_induction readItems text generalizing items with
  | case1 => simp at h
  | case2 rest =>
    simp only [Option.some.injEq, Prod.mk.injEq] at h
    rwa [← h.2]
  | case3 c rest ih =>
    obtain ⟨⟨items', after'⟩, hrest, heq⟩ := Option.map_eq_some_iff.1 h
    obtain ⟨-, rfl⟩ := Prod.mk.inj heq
    exact ih hrest (hescaped c rest hp)
  | case4 c rest _ hescape ih =>
    obtain ⟨⟨items', after'⟩, hrest, heq⟩ := Option.map_eq_some_iff.1 h
    obtain ⟨-, rfl⟩ := Prod.mk.inj heq
    exact ih hrest (hcons c rest hescape hp)

theorem readMembers_close {P : Text → Prop}
    (hcons : ∀ c rest, (∀ d more, c = '\\' → rest = d :: more → False) → P (c :: rest) → P rest)
    (hescaped : ∀ c rest, P ('\\' :: c :: rest) → P rest) {text after : Text}
    {items : List ClassItem} (h : readMembers text = some (items, after)) (hp : P text) :
    P (']' :: after) := by
  unfold readMembers at h
  split at h
  · obtain ⟨⟨items', after'⟩, hrest, heq⟩ := Option.map_eq_some_iff.1 h
    obtain ⟨-, rfl⟩ := Prod.mk.inj heq
    exact readItems_close hcons hescaped hrest (hcons _ _ (by simp) hp)
  · exact readItems_close hcons hescaped h hp

theorem read?_close {P : Text → Prop}
    (hcons : ∀ c rest, (∀ d more, c = '\\' → rest = d :: more → False) → P (c :: rest) → P rest)
    (hescaped : ∀ c rest, P ('\\' :: c :: rest) → P rest) {text after : Text} {cls : CharClass}
    (h : read? text = some (cls, after)) (hp : P text) : P (']' :: after) := by
  unfold read? at h
  split at h
  case h_3 =>
    obtain ⟨⟨items', after'⟩, hrest, heq⟩ := Option.map_eq_some_iff.1 h
    obtain ⟨-, rfl⟩ := Prod.mk.inj heq
    exact readMembers_close hcons hescaped hrest hp
  all_goals
    obtain ⟨⟨items', after'⟩, hrest, heq⟩ := Option.map_eq_some_iff.1 h
    obtain ⟨-, rfl⟩ := Prod.mk.inj heq
    exact readMembers_close hcons hescaped hrest (hcons _ _ (by simp) hp)

end CharClass

/-! ### Runs of `**` -/

theorem startsWithGlobstar_iff {text : Text} : startsWithGlobstar text = true ↔
    text = ['/', '*', '*'] ∨ ∃ rest, text = '/' :: '*' :: '*' :: '/' :: rest := by
  unfold startsWithGlobstar
  split <;> simp_all

theorem not_startsWithGlobstar {c : Char} {rest : Text}
    (hspan : ∀ more, c = '/' → rest = '*' :: '*' :: '/' :: more → False)
    (hbelow : c = '/' → rest = ['*', '*'] → False) : startsWithGlobstar (c :: rest) = false := by
  refine Bool.eq_false_iff.2 fun hstart => ?_
  rcases startsWithGlobstar_iff.1 hstart with heq | ⟨more, heq⟩
  · exact hbelow (List.cons.inj heq).1 (List.cons.inj heq).2
  · exact hspan more (List.cons.inj heq).1 (List.cons.inj heq).2

theorem head?_of_startsWithGlobstar {text : Text} (h : startsWithGlobstar text = true) :
    ∃ rest, text = '/' :: '*' :: '*' :: rest := by
  unfold startsWithGlobstar at h
  split at h
  · exact ⟨[], rfl⟩
  · exact ⟨_, rfl⟩
  · simp at h

theorem head?_collapseGlobstars (text : Text) :
    (collapseGlobstars text).head? = text.head? := by
  fun_induction collapseGlobstars text with
  | case1 rest h ih =>
    obtain ⟨more, rfl⟩ := head?_of_startsWithGlobstar h
    simpa using ih
  | case2 | case3 | case4 => rfl

theorem collapseGlobstars_eq_nil {text : Text} : collapseGlobstars text = [] ↔ text = [] := by
  rw [← List.head?_eq_none_iff, head?_collapseGlobstars, List.head?_eq_none_iff]

theorem collapseGlobstars_cons {c : Char} (h : c ≠ '/') (text : Text) :
    collapseGlobstars (c :: text) = c :: collapseGlobstars text := by
  rw [collapseGlobstars]
  exact fun _ e => absurd e h

/-- A text without a `/` in front is not changed. -/
theorem collapseGlobstars_append {front : Text} (h : '/' ∉ front) (text : Text) :
    collapseGlobstars (front ++ text) = front ++ collapseGlobstars text := by
  induction front with
  | nil => rfl
  | cons c front ih =>
    simp only [List.mem_cons, not_or] at h
    rw [List.cons_append, collapseGlobstars_cons (Ne.symm h.1), ih h.2, List.cons_append]

/-- The text ends a component that stands in front of it. -/
def endsComponent (text : Text) : Bool := text.head?.all (· == '/')

theorem startsWithGlobstar_cons (text : Text) :
    startsWithGlobstar ('/' :: '*' :: '*' :: text) = endsComponent text := by
  cases text with
  | nil => rfl
  | cons c text =>
    by_cases h : c = '/'
    · simp [startsWithGlobstar, endsComponent, h]
    · simp [startsWithGlobstar, endsComponent, h]

theorem endsComponent_iff {text : Text} :
    endsComponent text = true ↔ text = [] ∨ text.head? = some '/' := by
  cases text <;> simp [endsComponent]

theorem endsComponent_collapse (text : Text) :
    endsComponent (collapseGlobstars text) = endsComponent text := by
  rw [endsComponent, head?_collapseGlobstars, endsComponent]

theorem collapseGlobstars_eq_cons {c : Char} {text more : Text} (hc : c ≠ '/')
    (h : collapseGlobstars text = c :: more) :
    ∃ rest, text = c :: rest ∧ collapseGlobstars rest = more := by
  have hhead := head?_collapseGlobstars text
  rw [h, List.head?_cons] at hhead
  obtain ⟨rest, rfl⟩ := List.head?_eq_some_iff.1 hhead.symm
  rw [collapseGlobstars_cons hc, List.cons.injEq] at h
  exact ⟨rest, rfl, h.2⟩

theorem stars_of_collapseGlobstars {text more : Text}
    (h : collapseGlobstars text = '*' :: '*' :: more) : ∃ rest, text = '*' :: '*' :: rest := by
  obtain ⟨rest, rfl, hrest⟩ := collapseGlobstars_eq_cons (by decide) h
  obtain ⟨rest, rfl, -⟩ := collapseGlobstars_eq_cons (by decide) hrest
  exact ⟨rest, rfl⟩

theorem startsWithGlobstar_collapse (text : Text) :
    startsWithGlobstar (collapseGlobstars text) = startsWithGlobstar text := by
  fun_induction collapseGlobstars text with
  | case1 rest h ih =>
    obtain ⟨more, rfl⟩ := head?_of_startsWithGlobstar h
    rw [ih, h, startsWithGlobstar_cons]
    rfl
  | case2 rest h ih => rw [startsWithGlobstar_cons, startsWithGlobstar_cons, endsComponent_collapse]
  | case3 c rest h ih =>
    have hleft : ¬ startsWithGlobstar (c :: collapseGlobstars rest) = true := by
      intro hstart
      obtain ⟨more, hmore⟩ := head?_of_startsWithGlobstar hstart
      obtain ⟨rest, rfl⟩ := stars_of_collapseGlobstars (List.cons.inj hmore).2
      exact h rest (List.cons.inj hmore).1 rfl
    have hright : ¬ startsWithGlobstar (c :: rest) = true := by
      intro hstart
      obtain ⟨more, hmore⟩ := head?_of_startsWithGlobstar hstart
      exact h more (List.cons.inj hmore).1 (List.cons.inj hmore).2
    rw [Bool.eq_false_iff.2 hleft, Bool.eq_false_iff.2 hright]
  | case4 => rfl

/-- No `**` of the text that follows a `/` is followed by another. -/
def Collapsed (text : Text) : Prop :=
  ∀ before after, text = before ++ '/' :: '*' :: '*' :: after → startsWithGlobstar after = false

theorem Collapsed.of_append (front : Text) {text : Text} (h : Collapsed (front ++ text)) :
    Collapsed text := by
  rintro before after rfl
  exact h (front ++ before) after (by simp)

theorem collapsed_collapseGlobstars (text : Text) : Collapsed (collapseGlobstars text) := by
  fun_induction collapseGlobstars text with
  | case1 rest _ ih => exact ih
  | case2 rest h ih =>
    intro before after heq
    match before, heq with
    | [], heq =>
      simp only [List.nil_append, List.cons.injEq, true_and] at heq
      rw [← heq, startsWithGlobstar_collapse]
      exact Bool.eq_false_iff.2 h
    | [_], heq => simp at heq
    | [_, _], heq => simp at heq
    | _ :: _ :: _ :: before, heq =>
      simp only [List.cons_append, List.cons.injEq] at heq
      exact ih before after heq.2.2.2
  | case3 c rest h ih =>
    intro before after heq
    cases before with
    | nil =>
      obtain ⟨rest, rfl⟩ := stars_of_collapseGlobstars (List.cons.inj heq).2
      exact absurd rfl (h rest (List.cons.inj heq).1)
    | cons d before =>
      exact ih before after (List.cons.inj heq).2
  | case4 => simp [Collapsed]

namespace CharClass

theorem isSome_readItems_escaped (c : Char) (text : Text) :
    (readItems ('\\' :: c :: text)).isSome = (readItems text).isSome := by
  simp [readItems]

theorem isSome_readItems_cons {c : Char} {text : Text} (hbracket : c ≠ ']')
    (hescape : ∀ d more, c = '\\' → text = d :: more → False) :
    (readItems (c :: text)).isSome = (readItems text).isSome := by
  rw [readItems]
  · simp
  · exact hbracket
  · exact hescape

/-- To cut runs of `**` down does not change whether a class closes. -/
theorem isSome_readItems_collapse (text : Text) :
    (readItems (collapseGlobstars text)).isSome = (readItems text).isSome ∧
      (readItems (collapseGlobstars text).tail).isSome = (readItems text.tail).isSome := by
  have hplain : ∀ {c : Char} (rest : Text), c = '/' ∨ c = '*' →
      (readItems (c :: rest)).isSome = (readItems rest).isSome := by
    rintro c rest (rfl | rfl) <;> exact isSome_readItems_cons (by decide) (by simp)
  fun_induction collapseGlobstars text with
  | case1 rest h ih =>
    obtain ⟨more, rfl⟩ := head?_of_startsWithGlobstar h
    rw [List.tail_cons, hplain _ (Or.inl rfl), hplain _ (Or.inr rfl), hplain _ (Or.inr rfl)]
    refine ⟨ih.1, ih.2.trans ?_⟩
    rw [List.tail_cons, hplain _ (Or.inl rfl)]
  | case2 rest h ih =>
    rw [List.tail_cons, List.tail_cons, hplain _ (Or.inl rfl), hplain _ (Or.inl rfl)]
    simp only [hplain _ (Or.inr rfl), ih.1, and_self]
  | case3 c rest h ih =>
    refine ⟨?_, ih.1⟩
    by_cases hbracket : c = ']'
    · simp [hbracket, readItems]
    by_cases hescape : ∃ d more, c = '\\' ∧ rest = d :: more
    · obtain ⟨d, more, rfl, rfl⟩ := hescape
      obtain ⟨below, hbelow⟩ := List.head?_eq_some_iff.1 (head?_collapseGlobstars (d :: more))
      have htail := ih.2
      rw [hbelow] at htail ⊢
      rw [isSome_readItems_escaped, isSome_readItems_escaped]
      exact htail
    · have hescape' : ∀ d more, c = '\\' → collapseGlobstars rest = d :: more → False := by
        intro d more hc hmore
        cases rest with
        | nil => simp [collapseGlobstars] at hmore
        | cons d rest => exact hescape ⟨d, rest, hc, rfl⟩
      rw [isSome_readItems_cons hbracket hescape',
        isSome_readItems_cons hbracket fun d more hc hrest => hescape ⟨d, more, hc, hrest⟩, ih.1]
  | case4 => simp

theorem readMembers_of_head?_ne {text : Text} (h : text.head? ≠ some ']') :
    readMembers text = readItems text := by
  rw [readMembers]
  rintro rest rfl
  simp at h

theorem isSome_readMembers_collapse (text : Text) :
    (readMembers (collapseGlobstars text)).isSome = (readMembers text).isSome := by
  by_cases h : text.head? = some ']'
  · obtain ⟨rest, rfl⟩ := List.head?_eq_some_iff.1 h
    rw [collapseGlobstars_cons (by decide)]
    simp [readMembers, (isSome_readItems_collapse rest).1]
  · rw [readMembers_of_head?_ne h, readMembers_of_head?_ne (by rwa [head?_collapseGlobstars]),
      (isSome_readItems_collapse text).1]

theorem isSome_read?_of_head?_ne {text : Text} (hbang : text.head? ≠ some '!')
    (hcaret : text.head? ≠ some '^') : (read? text).isSome = (readMembers text).isSome := by
  rw [read?]
  · simp
  · rintro rest rfl
    simp at hbang
  · rintro rest rfl
    simp at hcaret

theorem isSome_read?_collapse (text : Text) :
    (read? (collapseGlobstars text)).isSome = (read? text).isSome := by
  by_cases hbang : text.head? = some '!'
  · obtain ⟨rest, rfl⟩ := List.head?_eq_some_iff.1 hbang
    rw [collapseGlobstars_cons (by decide)]
    simp [read?, isSome_readMembers_collapse rest]
  by_cases hcaret : text.head? = some '^'
  · obtain ⟨rest, rfl⟩ := List.head?_eq_some_iff.1 hcaret
    rw [collapseGlobstars_cons (by decide)]
    simp [read?, isSome_readMembers_collapse rest]
  rw [isSome_read?_of_head?_ne hbang hcaret,
    isSome_read?_of_head?_ne (by rwa [head?_collapseGlobstars]) (by rwa [head?_collapseGlobstars]),
    isSome_readMembers_collapse]

end CharClass

/-! ### Where a `**` may stand -/

/-- A `**` of the text is not a whole component. While `fresh` is set, a component begins; a
character behind a backslash is passed over. -/
def misplaces : (fresh : Bool) → Text → Bool
  | _, [] => false
  | _, '\\' :: _ :: rest => misplaces false rest
  | _, '/' :: rest => misplaces true rest
  | fresh, '*' :: '*' :: rest => !(fresh && endsComponent rest) || misplaces false rest
  | _, _ :: rest => misplaces false rest

theorem misplaces_slash (fresh : Bool) (rest : Text) :
    misplaces fresh ('/' :: rest) = misplaces true rest := by
  cases fresh <;> rfl

theorem misplaces_escaped (fresh : Bool) (c : Char) (rest : Text) :
    misplaces fresh ('\\' :: c :: rest) = misplaces false rest := by
  cases fresh <;> rfl

theorem misplaces_stars (fresh : Bool) (rest : Text) :
    misplaces fresh ('*' :: '*' :: rest) =
      (!(fresh && endsComponent rest) || misplaces false rest) := by
  cases fresh <;> rfl

/-- A character that is neither `/`, the first of `**` nor a backslash in front of another only
ends the beginning of a component. -/
theorem misplaces_cons {fresh : Bool} {c : Char} {rest : Text}
    (hescape : ∀ d more, c = '\\' → rest = d :: more → False) (hslash : c = '/' → False)
    (hstar : ∀ more, c = '*' → rest = '*' :: more → False) :
    misplaces fresh (c :: rest) = misplaces false rest := by
  rw [misplaces]
  · exact hescape
  · exact hslash
  · exact hstar

/-- What ends a component is read alike whether or not it begins one. -/
theorem misplaces_of_endsComponent {fresh : Bool} {rest : Text} (h : endsComponent rest = true) :
    misplaces fresh rest = misplaces false rest := by
  cases rest with
  | nil => cases fresh <;> rfl
  | cons c rest =>
    obtain rfl : c = '/' := by simpa [endsComponent] using h
    rw [misplaces_slash, misplaces_slash]

/-- Where no `**` stands as a whole component, a component may as well have begun. -/
theorem misplaces_of_not_startsWithGlobstar {rest : Text}
    (h : startsWithGlobstar ('/' :: rest) = false) :
    misplaces true rest = misplaces false rest := by
  fun_cases misplaces true rest with
  | case1 => rfl
  | case2 => rfl
  | case3 => rfl
  | case4 rest =>
    rw [startsWithGlobstar_cons] at h
    simp [misplaces_stars, h]
  | case5 _ c rest hescape hslash hstar =>
    exact (misplaces_cons hescape hslash hstar).symm

/-- To cut runs of `**` down does not change whether a `**` is misplaced. Nor does it behind a
character that is passed over. -/
theorem misplaces_collapseGlobstars (text : Text) :
    (∀ fresh, misplaces fresh (collapseGlobstars text) = misplaces fresh text) ∧
      misplaces false (collapseGlobstars text).tail = misplaces false text.tail := by
  -- the second half is for what is passed over: a character behind a `\`, and the second `*`
  fun_induction collapseGlobstars text with
  | case1 rest h ih =>
    obtain ⟨more, hmore⟩ := head?_of_startsWithGlobstar h
    have hends : endsComponent rest = true := by rw [hmore]; rfl
    obtain ⟨below, hbelow⟩ := head?_of_startsWithGlobstar
      ((startsWithGlobstar_collapse rest).trans h)
    constructor
    · intro fresh
      rw [ih.1, misplaces_slash, misplaces_stars, misplaces_of_endsComponent hends]
      simp [hends]
    · rw [hbelow, List.tail_cons, List.tail_cons, misplaces_stars, misplaces_stars]
      rfl
  | case2 rest h ih =>
    constructor
    · intro fresh
      rw [misplaces_slash, misplaces_slash, misplaces_stars, misplaces_stars,
        endsComponent_collapse, ih.1]
    · rw [List.tail_cons, List.tail_cons, misplaces_stars, misplaces_stars]
      rfl
  | case3 c rest h ih =>
    refine ⟨fun fresh => ?_, ih.1 false⟩
    by_cases hslash : c = '/'
    · rw [hslash, misplaces_slash, misplaces_slash, ih.1]
    by_cases hescape : ∃ d more, c = '\\' ∧ rest = d :: more
    · obtain ⟨d, more, rfl, rfl⟩ := hescape
      obtain ⟨below, hbelow⟩ := List.head?_eq_some_iff.1 (head?_collapseGlobstars (d :: more))
      have htail := ih.2
      rw [hbelow] at htail ⊢
      rw [misplaces_escaped, misplaces_escaped]
      exact htail
    by_cases hstar : ∃ more, c = '*' ∧ rest = '*' :: more
    · obtain ⟨more, rfl, rfl⟩ := hstar
      have htail := ih.2
      rw [collapseGlobstars_cons (by decide)] at htail ⊢
      rw [misplaces_stars, misplaces_stars, endsComponent_collapse]
      exact congrArg _ htail
    · rw [misplaces_cons ?_ hslash ?_, misplaces_cons ?_ hslash ?_, ih.1]
      · exact fun d more hc hrest => hescape ⟨d, more, hc, hrest⟩
      · exact fun more hc hrest => hstar ⟨more, hc, hrest⟩
      · intro d more hc hmore
        cases rest with
        | nil => simp [collapseGlobstars] at hmore
        | cons d rest => exact hescape ⟨d, rest, hc, rfl⟩
      · intro more hc hmore
        obtain ⟨rest, rfl, -⟩ := collapseGlobstars_eq_cons (by decide) hmore
        exact hstar ⟨rest, hc, rfl⟩
  | case4 => simp

/-- In every text without a misplaced `**`, a text behind its first character can be found to have
none either, unless that character is passed over. -/
theorem misplaces_tail {fresh : Bool} {c : Char} {rest : Text}
    (h : misplaces fresh (c :: rest) = false)
    (hescape : ∀ d more, c = '\\' → rest = d :: more → False) :
    ∃ fresh', misplaces fresh' rest = false := by
  by_cases hslash : c = '/'
  · subst hslash
    exact ⟨true, by rwa [misplaces_slash] at h⟩
  by_cases hstar : ∃ more, c = '*' ∧ rest = '*' :: more
  · obtain ⟨more, rfl, rfl⟩ := hstar
    simp only [misplaces_stars, Bool.or_eq_false_iff, Bool.not_eq_false', Bool.and_eq_true] at h
    obtain ⟨⟨-, hends⟩, hmore⟩ := h
    refine ⟨false, ?_⟩
    rw [misplaces_cons, hmore]
    · simp
    · simp
    · rintro more - rfl
      simp [endsComponent] at hends
  · rw [misplaces_cons hescape hslash fun more hc hr => hstar ⟨more, hc, hr⟩] at h
    exact ⟨false, h⟩

/-- A text without a misplaced `**` has none behind a class in it. -/
theorem misplaces_of_readClass {fresh : Bool} {text after : Text} {cls : CharClass}
    (h : CharClass.read? text = some (cls, after)) (hm : misplaces fresh text = false) :
    misplaces false after = false := by
  have hclose : ∃ fresh', misplaces fresh' (']' :: after) = false := by
    refine CharClass.read?_close (P := fun text => ∃ fresh', misplaces fresh' text = false)
      (fun c rest hescape hrest => ?_) (fun c rest hrest => ?_) h ⟨fresh, hm⟩
    · obtain ⟨fresh', hm'⟩ := hrest
      exact misplaces_tail hm' hescape
    · obtain ⟨fresh', hm'⟩ := hrest
      rw [misplaces_escaped] at hm'
      exact ⟨false, hm'⟩
  obtain ⟨fresh', hm'⟩ := hclose
  rwa [misplaces_cons (by simp) (by simp) (by simp)] at hm'

namespace Token

theorem read?_bracket {rest after : Text} {cls : CharClass}
    (h : CharClass.read? rest = some (cls, after)) :
    read? ('[' :: rest) = (read? after).map (.bracket cls :: ·) := by
  rw [read?]
  split
  · next hread =>
    rw [h] at hread
    cases hread
    rfl
  · next hread =>
    rw [h] at hread
    cases hread

theorem read?_opening {rest : Text} (h : CharClass.read? rest = none) :
    read? ('[' :: rest) = (read? rest).map (.char '[' :: ·) := by
  rw [read?]
  split
  · next hread =>
    rw [h] at hread
    cases hread
  · rfl

/-- The text begins with what the token is read from. -/
def IsReadFrom : Token → Text → Prop
  | .char c, text => ∃ rest, text = c :: rest ∨ text = '\\' :: c :: rest
  | .row count, text => count ≠ 0 ∧ ∃ rest, text = '?' :: rest
  | .star, text => ∃ rest, text = '*' :: rest
  | .bracket cls, text => ∃ rest after, text = '[' :: rest ∧
      CharClass.read? rest = some (cls, after)
  | .span, text => ∃ rest, text = '/' :: '*' :: '*' :: '/' :: rest
  | .below, text => text = ['/', '*', '*']

/-- Every token of a text is read from a place of it. -/
theorem exists_isReadFrom {text : Text} {tokens : List Token} {token : Token}
    (h : read? text = some tokens) (hmem : token ∈ tokens) :
    ∃ before rest, text = before ++ rest ∧ token.IsReadFrom rest := by
  have hcons : ∀ (front : Text) {more : Text} {first : Token} {tokens : List Token},
      (∀ tokens', read? more = some tokens' → token ∈ tokens' →
        ∃ before rest, more = before ++ rest ∧ token.IsReadFrom rest) →
      (read? more).map (first :: ·) = some tokens → first.IsReadFrom (front ++ more) →
      token ∈ tokens → ∃ before rest, front ++ more = before ++ rest ∧ token.IsReadFrom rest := by
    intro front more first tokens ih h hfirst hmem
    obtain ⟨tokens', htokens, rfl⟩ := Option.map_eq_some_iff.1 h
    rcases List.mem_cons.1 hmem with rfl | hmem
    · exact ⟨[], front ++ more, rfl, hfirst⟩
    · obtain ⟨before, rest, rfl, hread⟩ := ih tokens' htokens hmem
      exact ⟨front ++ before, rest, by simp, hread⟩
  fun_induction read? text generalizing tokens with
  | case1 => simp_all
  | case2 rest ih =>
    exact hcons ['/', '*', '*', '/'] (fun _ => ih) h ⟨rest, rfl⟩ hmem
  | case3 =>
    cases h
    exact ⟨[], _, rfl, by simp_all [IsReadFrom]⟩
  | case4 => simp at h
  | case5 rest _ ih => exact hcons ['*'] (fun _ => ih) h ⟨rest, rfl⟩ hmem
  | case6 rest ih =>
    obtain ⟨tokens', htokens, rfl⟩ := Option.map_eq_some_iff.1 h
    have hrow : (∃ count, token = .row (count + 1)) ∨ token ∈ tokens' := by
      unfold consRow at hmem
      split at hmem
      · rcases List.mem_cons.1 hmem with rfl | hmem
        · exact Or.inl ⟨_, rfl⟩
        · exact Or.inr (List.mem_cons_of_mem _ hmem)
      · rcases List.mem_cons.1 hmem with rfl | hmem
        · exact Or.inl ⟨0, rfl⟩
        · exact Or.inr hmem
    rcases hrow with ⟨count, rfl⟩ | hmem
    · exact ⟨[], _, rfl, by simp, rest, rfl⟩
    · obtain ⟨before, rest', rfl, hread⟩ := ih htokens hmem
      exact ⟨'?' :: before, rest', rfl, hread⟩
  | case7 rest cls after hclass ih =>
    obtain ⟨-, inner, rfl, -, -⟩ := CharClass.read?_local hclass
    have hfirst : (bracket cls).IsReadFrom (('[' :: inner ++ [']']) ++ after) :=
      ⟨inner ++ ']' :: after, after, by simp, hclass⟩
    simpa using hcons ('[' :: inner ++ [']']) (fun _ => ih) h hfirst hmem
  | case8 rest _ ih => exact hcons ['['] (fun _ => ih) h ⟨rest, Or.inl rfl⟩ hmem
  | case9 c rest ih => exact hcons ['\\', c] (fun _ => ih) h ⟨rest, Or.inr rfl⟩ hmem
  | case10 c rest _ _ _ _ _ _ _ ih => exact hcons [c] (fun _ => ih) h ⟨rest, Or.inl rfl⟩ hmem

/-- There are tokens if no `**` is misplaced. -/
theorem read?_ne_none {text : Text} (h : Collapsed text) (hm : misplaces false text = false) :
    read? text ≠ none := by
  -- behind a token that begins with `/` comes no further `**`, for the text is collapsed
  fun_induction read? text with
  | case1 => simp
  | case2 rest ih =>
    have hrest : misplaces false rest = false := by
      rw [← misplaces_of_not_startsWithGlobstar (h [] ('/' :: rest) rfl)]
      exact hm
    simpa using ih (Collapsed.of_append ['/', '*', '*', '/'] h) hrest
  | case3 => simp
  | case4 => simp [misplaces_stars] at hm
  | case5 rest hstar ih =>
    rw [misplaces_cons (by simp) (by simp) (fun more _ hmore => hstar more hmore)] at hm
    simpa using ih (Collapsed.of_append ['*'] h) hm
  | case6 rest ih =>
    rw [misplaces_cons (by simp) (by simp) (by simp)] at hm
    simpa using ih (Collapsed.of_append ['?'] h) hm
  | case7 rest cls after hclass ih =>
    obtain ⟨-, inner, rfl, -, -⟩ := CharClass.read?_local hclass
    rw [misplaces_cons (by simp) (by simp) (by simp)] at hm
    have hafter := misplaces_of_readClass hclass hm
    have hcollapsed : Collapsed (('[' :: inner ++ [']']) ++ after) := by simpa using h
    simpa using ih (hcollapsed.of_append _) hafter
  | case8 rest hclass ih =>
    rw [misplaces_cons (by simp) (by simp) (by simp)] at hm
    simpa using ih (Collapsed.of_append ['['] h) hm
  | case9 c rest ih =>
    rw [misplaces_escaped] at hm
    simpa using ih (Collapsed.of_append ['\\', c] h) hm
  | case10 c rest hspan hbelow hstars _ _ _ hescape ih =>
    have hrest : misplaces false rest = false := by
      by_cases hslash : c = '/'
      · subst hslash
        rw [misplaces_slash] at hm
        rwa [← misplaces_of_not_startsWithGlobstar (not_startsWithGlobstar hspan hbelow)]
      · rwa [misplaces_cons hescape hslash hstars] at hm
    simpa using ih (Collapsed.of_append [c] h) hrest

/-- If there are tokens, no `**` outside of classes is misplaced. -/
theorem misplaces_of_read? {text : Text} (h : Collapsed text) (hclass : '[' ∉ text)
    (hread : read? text ≠ none) : misplaces false text = false := by
  fun_induction read? text with
  | case1 => rfl
  | case2 rest ih =>
    have hrest := ih (Collapsed.of_append ['/', '*', '*', '/'] h) (by simp_all)
      (by simpa using hread)
    rw [← misplaces_of_not_startsWithGlobstar (h [] ('/' :: rest) rfl)] at hrest
    exact hrest
  | case3 => rfl
  | case4 => simp at hread
  | case5 rest hstar ih =>
    rw [misplaces_cons (by simp) (by simp) (fun more _ hmore => hstar more hmore)]
    exact ih (Collapsed.of_append ['*'] h) (by simp_all) (by simpa using hread)
  | case6 rest ih =>
    rw [misplaces_cons (by simp) (by simp) (by simp)]
    exact ih (Collapsed.of_append ['?'] h) (by simp_all) (by simpa using hread)
  | case7 | case8 => simp at hclass
  | case9 c rest ih =>
    rw [misplaces_escaped]
    exact ih (Collapsed.of_append ['\\', c] h) (by simp_all) (by simpa using hread)
  | case10 c rest hspan hbelow hstars _ _ _ hescape ih =>
    have hrest := ih (Collapsed.of_append [c] h) (by simp_all) (by simpa using hread)
    by_cases hslash : c = '/'
    · subst hslash
      rw [misplaces_slash,
        misplaces_of_not_startsWithGlobstar (not_startsWithGlobstar hspan hbelow)]
      exact hrest
    · rwa [misplaces_cons hescape hslash hstars]

end Token

end PathRights.Pattern
