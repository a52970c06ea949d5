import PathRights.Proofs.Pattern.Meaning

/-! The matcher of a pattern decides its meaning by components. The matcher knows nothing of
components: it reads the text of the pattern into tokens, with runs of `**` cut down. So the proof
goes along the components of the text. `Token.stands_component` reads one of them,
`Token.stands_slashed` those that stand behind their `/`, and `accepts_iff_matchesPath` puts the
anchor in front. -/

namespace PathRights.Pattern

/-! ### Where names can be cut -/

/-- A text can be cut in only one way into one without a `/` and one that ends it. -/
theorem eq_of_append_endsComponent {front front' back back' : Text} (hfront : '/' ∉ front)
    (hfront' : '/' ∉ front') (hback : endsComponent back = true)
    (hback' : endsComponent back' = true)
    (h : front ++ back = front' ++ back') : front = front' ∧ back = back' := by
  induction front generalizing front' with
  | nil =>
    cases front' with
    | nil => exact ⟨rfl, h⟩
    | cons c front' =>
      rw [List.nil_append] at h
      rw [h] at hback
      obtain rfl : c = '/' := by simpa [endsComponent] using hback
      simp at hfront'
  | cons c front ih =>
    cases front' with
    | nil =>
      rw [List.nil_append] at h
      rw [← h] at hback'
      obtain rfl : c = '/' := by simpa [endsComponent] using hback'
      simp at hfront
    | cons d front' =>
      simp only [List.mem_cons, not_or] at hfront hfront'
      obtain ⟨rfl, hrest⟩ := List.cons.inj h
      obtain ⟨rfl, rfl⟩ := ih hfront.2 hfront'.2 hrest
      exact ⟨rfl, rfl⟩

theorem endsComponent_slashed (names : List Text) : endsComponent (slashed names) = true := by
  cases names <;> rfl

theorem endsComponent_slashed_append {names : List Text} {text : Text}
    (h : endsComponent text = true) : endsComponent (slashed names ++ text) = true := by
  cases names with
  | nil => exact h
  | cons name names => rfl

/-- What begins with some names goes on with the others. -/
theorem slashed_eq_append {names before : List Text} {after : Text}
    (hnames : ∀ name ∈ names, '/' ∉ name) (hbefore : ∀ name ∈ before, '/' ∉ name)
    (hends : endsComponent after = true) (h : slashed names = slashed before ++ after) :
    ∃ below, names = before ++ below ∧ after = slashed below := by
  induction before generalizing names with
  | nil => exact ⟨names, rfl, h.symm⟩
  | cons first before ih =>
    cases names with
    | nil => simp at h
    | cons name names =>
      simp only [slashed_cons, List.cons_append, List.append_assoc, List.cons.injEq, true_and] at h
      obtain ⟨rfl, hrest⟩ := eq_of_append_endsComponent (hnames name (by simp))
        (hbefore first (by simp)) (endsComponent_slashed names)
        (endsComponent_slashed_append hends) h
      obtain ⟨below, rfl, rfl⟩ := ih (fun n hn => hnames n (by simp [hn]))
        (fun n hn => hbefore n (by simp [hn])) hrest
      exact ⟨below, rfl, rfl⟩

theorem slashed_inj {names names' : List Text} (hnames : ∀ name ∈ names, '/' ∉ name)
    (hnames' : ∀ name ∈ names', '/' ∉ name) (h : slashed names = slashed names') :
    names = names' := by
  obtain ⟨below, rfl, hbelow⟩ := slashed_eq_append hnames hnames' rfl
    (h.trans (List.append_nil _).symm)
  cases below with
  | nil => exact List.append_nil names'
  | cons name below => cases hbelow

/-- What follows a `/` of some names is the text of the last of them. -/
theorem slashed_eq_append_slash {names : List Text} {front start : Text}
    (hnames : ∀ name ∈ names, '/' ∉ name) (h : slashed names = front ++ '/' :: start) :
    ∃ before below, names = before ++ below ∧ slashed below = '/' :: start := by
  induction names generalizing front with
  | nil => simp at h
  | cons name names ih =>
    have hnames' : ∀ n ∈ names, '/' ∉ n := fun n hn => hnames n (by simp [hn])
    cases front with
    | nil => exact ⟨[], name :: names, rfl, h⟩
    | cons c front =>
      simp only [slashed_cons, List.cons_append, List.cons.injEq] at h
      rcases List.append_eq_append_iff.1 h.2 with ⟨between, rfl, hrest⟩ | ⟨between, rfl, hrest⟩
      · obtain ⟨before, below, rfl, hbelow⟩ := ih hnames' hrest
        exact ⟨name :: before, below, rfl, hbelow⟩
      · cases between with
        | nil =>
          obtain ⟨before, below, rfl, hbelow⟩ := @ih [] hnames' hrest.symm
          exact ⟨_ :: before, below, rfl, hbelow⟩
        | cons d between =>
          obtain ⟨rfl, -⟩ := List.cons.inj hrest
          exact absurd (hnames _ List.mem_cons_self) (by simp)

/-! ### One component -/

namespace Token

theorem stands_consRow {tokens : List Token} {text : Text} :
    Stands (consRow tokens) text ↔
      ∃ c rest, c ≠ '/' ∧ Stands tokens rest ∧ text = c :: rest := by
  have hone : ∀ taken : Text, (Token.row 1).Takes taken ↔ ∃ c, c ≠ '/' ∧ taken = [c] := by
    intro taken
    match taken with
    | [] => simp [Takes]
    | [c] => simp [Takes, eq_comm]
    | _ :: _ :: _ => simp [Takes]
  unfold consRow
  split
  · next count tokens =>
    constructor
    · rintro ⟨taken, rest, ⟨hlength, hslash⟩, hrest, rfl⟩
      cases taken with
      | nil => simp at hlength
      | cons c taken =>
        simp only [List.mem_cons, not_or] at hslash
        simp only [List.length_cons, Nat.add_right_cancel_iff] at hlength
        exact ⟨c, taken ++ rest, Ne.symm hslash.1,
          ⟨taken, rest, ⟨hlength, hslash.2⟩, hrest, rfl⟩, rfl⟩
    · rintro ⟨c, _, hc, ⟨taken, rest, ⟨hlength, hslash⟩, hrest, rfl⟩, rfl⟩
      exact ⟨c :: taken, rest, ⟨by simp [hlength], by simp [Ne.symm hc, hslash]⟩, hrest, rfl⟩
  · constructor
    · rintro ⟨taken, rest, htaken, hrest, rfl⟩
      obtain ⟨c, hc, rfl⟩ := (hone taken).1 htaken
      exact ⟨c, rest, hc, hrest, rfl⟩
    · rintro ⟨c, rest, hc, hrest, rfl⟩
      exact ⟨[c], rest, (hone [c]).2 ⟨c, hc, rfl⟩, hrest, rfl⟩

/-- The tokens stand for a name that matches the component and what other tokens stand for. -/
def StandsBehind (component : Text) (rest : List Token) (text : Text) : Prop :=
  ∃ name after, '/' ∉ name ∧ MatchesName component name ∧ Stands rest after ∧ text = name ++ after

/-- A token for one character in front of a component, which takes that character of a name. -/
theorem stands_iff_standsBehind_cons {component component' : Text}
    {tokens tokens' rest : List Token}
    {P : Char → Prop} (hP : ∀ c, P c → c ≠ '/')
    (htoken : ∀ target, Stands tokens target ↔
      ∃ c target', P c ∧ Stands tokens' target' ∧ target = c :: target')
    (hmatch : ∀ name, '/' ∉ name → (MatchesName component name ↔
      ∃ c name', P c ∧ MatchesName component' name' ∧ name = c :: name'))
    (h : ∀ target, Stands tokens' target ↔ StandsBehind component' rest target) (target : Text) :
    Stands tokens target ↔ StandsBehind component rest target := by
  rw [htoken]
  constructor
  · rintro ⟨c, target', hc, htarget, rfl⟩
    obtain ⟨name, after, hslash, hname, hafter, rfl⟩ := (h target').1 htarget
    have hslash' : '/' ∉ c :: name := by simp [hslash, Ne.symm (hP c hc)]
    exact ⟨c :: name, after, hslash', (hmatch _ hslash').2 ⟨c, name, hc, hname, rfl⟩, hafter, rfl⟩
  · rintro ⟨name, after, hslash, hname, hafter, rfl⟩
    obtain ⟨c, name', hc, hname', rfl⟩ := (hmatch name hslash).1 hname
    simp only [List.mem_cons, not_or] at hslash
    exact ⟨c, name' ++ after, hc, (h _).2 ⟨name', after, hslash.2, hname', hafter, rfl⟩, rfl⟩

/-- A single `*` in front of a component takes any beginning of a name. -/
theorem stands_star_iff_standsBehind {component : Text} {tokens rest : List Token}
    (h : ∀ target, Stands tokens target ↔ StandsBehind component rest target) (target : Text) :
    Stands (.star :: tokens) target ↔ StandsBehind ('*' :: component) rest target := by
  constructor
  · rintro ⟨taken, rest', htaken, hrest', rfl⟩
    obtain ⟨name, after, hname, hmatch, hafter, rfl⟩ := (h rest').1 hrest'
    have htaken' : '/' ∉ taken := htaken
    exact ⟨taken ++ name, after, by simp [htaken', hname],
      MatchesName.star_iff.2 ⟨taken, name, hmatch, rfl⟩, hafter, by simp⟩
  · rintro ⟨_, after, hname, hmatch, hafter, rfl⟩
    obtain ⟨taken, name, hmatch', rfl⟩ := MatchesName.star_iff.1 hmatch
    simp only [List.mem_append, not_or] at hname
    exact ⟨taken, name ++ after, hname.1,
      (h _).2 ⟨name, after, hname.2, hmatch', hafter, rfl⟩, by simp⟩

/-- What collapsing leaves behind a component begins with no character but `/`. -/
theorem eq_cons_of_append_collapse {text rest more : Text} {c : Char}
    (hends : endsComponent text = true) (hc : c ≠ '/')
    (h : rest ++ collapseGlobstars text = c :: more) : ∃ rest', rest = c :: rest' := by
  cases rest with
  | nil =>
    rw [List.nil_append] at h
    have hcollapse := endsComponent_collapse text
    rw [hends, h] at hcollapse
    exact absurd (by simpa [endsComponent] using hcollapse) hc
  | cons d rest =>
    obtain ⟨rfl, -⟩ := List.cons.inj h
    exact ⟨rest, rfl⟩

/-- A bracket that opens no class within its component opens none at all: the class would have a `/`
in it. -/
theorem read?_class_collapse {rest text : Text} (hslash : '/' ∉ rest)
    (hends : endsComponent text = true) (h : Separated ('[' :: (rest ++ text)))
    (hclass : CharClass.read? rest = none) :
    CharClass.read? (rest ++ text) = none ∧
      CharClass.read? (rest ++ collapseGlobstars text) = none := by
  have hclass' : CharClass.read? (rest ++ text) = none := by
    rw [Option.eq_none_iff_forall_ne_some]
    rintro ⟨cls, after⟩ hread'
    obtain ⟨havoids, -⟩ := h.of_bracket hread'
    obtain ⟨rest', hrest', -⟩ := CharClass.read?_component hread' havoids.1
      (endsComponent_iff.1 hends)
    rw [hclass] at hrest'
    cases hrest'
  have hsome := CharClass.isSome_read?_collapse (rest ++ text)
  rw [hclass', collapseGlobstars_append hslash] at hsome
  exact ⟨hclass', by simpa using hsome⟩

/-- A `\` at the end of a component would escape the `/` behind it, or nothing. -/
theorem ne_backslash_of_separated {c : Char} {rest text : Text} (hends : endsComponent text = true)
    (h : Separated (c :: (rest ++ text)))
    (hescape : ∀ d more, c = '\\' → rest = d :: more → False) : c ≠ '\\' := by
  rintro rfl
  cases rest with
  | cons d rest => exact hescape d rest rfl rfl
  | nil =>
    rcases endsComponent_iff.1 hends with rfl | hhead
    · exact not_escapesNoSlash h.escapes
    · obtain ⟨more, rfl⟩ := List.head?_eq_some_iff.1 hhead
      exact h.of_escaped.1 rfl

/-- The tokens of a component and of what follows it stand for a name that matches the component and
what the others stand for. -/
theorem stands_component {component text : Text} {tokens : List Token} (hslash : '/' ∉ component)
    (hends : endsComponent text = true) (h : Separated (component ++ text))
    (hread : read? (component ++ collapseGlobstars text) = some tokens) :
    Separated text ∧ ∃ rest, read? (collapseGlobstars text) = some rest ∧
      ∀ target, Stands tokens target ↔ StandsBehind component rest target := by
  -- the reader of the component and that of the whole text go on side by side
  fun_induction read? component generalizing tokens with
  | case1 =>
    refine ⟨h, tokens, hread, fun target => ?_⟩
    simp [StandsBehind, MatchesName.nil_iff]
  | case2 | case3 => simp at hslash
  | case4 => simp [read?] at hread
  | case5 rest hstar ih =>
    simp only [List.mem_cons, not_or] at hslash
    rw [List.cons_append, read?] at hread
    · obtain ⟨tokens', htokens, rfl⟩ := Option.map_eq_some_iff.1 hread
      obtain ⟨hseparated, below, hbelow, hstands⟩ :=
        ih hslash.2 (h.of_cons (by decide) (by decide)) htokens
      exact ⟨hseparated, below, hbelow, stands_star_iff_standsBehind hstands⟩
    · intro more hmore
      obtain ⟨rest', rfl⟩ := eq_cons_of_append_collapse hends (by decide) hmore
      exact hstar rest' rfl
  | case6 rest ih =>
    simp only [List.mem_cons, not_or] at hslash
    rw [List.cons_append, read?] at hread
    obtain ⟨tokens', htokens, rfl⟩ := Option.map_eq_some_iff.1 hread
    obtain ⟨hseparated, below, hbelow, hstands⟩ :=
      ih hslash.2 (h.of_cons (by decide) (by decide)) htokens
    refine ⟨hseparated, below, hbelow, stands_iff_standsBehind_cons (fun _ hc => hc)
      (fun _ => stands_consRow) (fun name hname => ?_) hstands⟩
    rw [MatchesName.one_iff]
    constructor
    · rintro ⟨c, name', h, rfl⟩
      simp only [List.mem_cons, not_or] at hname
      exact ⟨c, name', Ne.symm hname.1, h, rfl⟩
    · rintro ⟨c, name', -, h, rfl⟩
      exact ⟨c, name', h, rfl⟩
  | case7 rest cls after hclass ih =>
    obtain ⟨havoids, hafter⟩ := h.of_bracket (CharClass.read?_append hclass text)
    have hslash' : '/' ∉ after := by
      obtain ⟨-, inner, rfl, -⟩ := CharClass.read?_local hclass
      simp_all
    rw [List.cons_append, read?_bracket (CharClass.read?_append hclass _)] at hread
    obtain ⟨tokens', htokens, rfl⟩ := Option.map_eq_some_iff.1 hread
    obtain ⟨hseparated, below, hbelow, hstands⟩ := ih hslash' hafter htokens
    refine ⟨hseparated, below, hbelow, stands_iff_standsBehind_cons
      (P := fun c => cls.accepts c = true) ?_ (fun _ => stands_bracket_cons)
      (fun name _ => MatchesName.bracket_iff hclass) hstands⟩
    rintro c hc rfl
    simp [havoids.2] at hc
  | case8 rest hclass ih =>
    simp only [List.mem_cons, not_or] at hslash
    obtain ⟨hclass', hcollapse⟩ := read?_class_collapse hslash.2 hends h hclass
    rw [List.cons_append, read?_opening hcollapse] at hread
    obtain ⟨tokens', htokens, rfl⟩ := Option.map_eq_some_iff.1 hread
    obtain ⟨hseparated, below, hbelow, hstands⟩ := ih hslash.2 (h.of_opening hclass') htokens
    refine ⟨hseparated, below, hbelow, stands_iff_standsBehind_cons (P := (· = '['))
      (by simp) (fun _ => by simp [stands_char_cons]) (fun name _ => ?_) hstands⟩
    simp [MatchesName.opening_iff hclass]
  | case9 c rest ih =>
    simp only [List.mem_cons, not_or] at hslash
    rw [List.cons_append, List.cons_append, read?] at hread
    obtain ⟨tokens', htokens, rfl⟩ := Option.map_eq_some_iff.1 hread
    obtain ⟨hseparated, below, hbelow, hstands⟩ := ih hslash.2.2 h.of_escaped.2 htokens
    refine ⟨hseparated, below, hbelow, stands_iff_standsBehind_cons (P := (· = c))
      (by simpa using Ne.symm hslash.2.1) (fun _ => by simp [stands_char_cons]) (fun name _ => ?_)
      hstands⟩
    simp [MatchesName.escaped_iff]
  | case10 c rest hspan hbelow hstars hstar hone hbracket hescape ih =>
    simp only [List.mem_cons, not_or] at hslash
    have hplain : c ≠ '\\' := ne_backslash_of_separated hends h hescape
    have hchar : read? (c :: (rest ++ collapseGlobstars text)) =
        (read? (rest ++ collapseGlobstars text)).map (.char c :: ·) := by
      rw [read?]
      · exact fun _ hc _ => hslash.1 hc.symm
      · exact fun hc _ => hslash.1 hc.symm
      · rintro more rfl hmore
        obtain ⟨rest', rfl⟩ := eq_cons_of_append_collapse hends (by decide) hmore
        exact hstars rest' rfl rfl
      · exact hstar
      · exact hone
      · exact hbracket
      · exact fun _ _ hc _ => hplain hc
    rw [List.cons_append, hchar] at hread
    obtain ⟨tokens', htokens, rfl⟩ := Option.map_eq_some_iff.1 hread
    obtain ⟨hseparated, below, hbelow', hstands⟩ :=
      ih hslash.2 (h.of_cons hplain hbracket) htokens
    refine ⟨hseparated, below, hbelow', stands_iff_standsBehind_cons (P := (· = c))
      (by simpa using Ne.symm hslash.1) (fun _ => by simp [stands_char_cons]) (fun name _ => ?_)
      hstands⟩
    have hspecial : c ∉ ['*', '?', '[', '\\'] := by
      simp only [List.mem_cons, List.not_mem_nil, or_false, not_or]
      exact ⟨hstar, hone, hbracket, hplain⟩
    simp [MatchesName.char_iff hspecial]

end Token

/-! ### All components -/

theorem startsWithGlobstar_component {component text : Text} (hslash : '/' ∉ component)
    (hends : endsComponent text = true) :
    startsWithGlobstar ('/' :: (component ++ text)) = true ↔ component = doubleStar := by
  constructor
  · intro h
    obtain ⟨rest, heq⟩ := head?_of_startsWithGlobstar h
    rw [heq, startsWithGlobstar_cons] at h
    have hcut : component ++ text = doubleStar ++ rest := (List.cons.inj heq).2
    exact (eq_of_append_endsComponent hslash (by decide) hends h hcut).1
  · rintro rfl
    rw [← hends]
    exact startsWithGlobstar_cons text

theorem collapseGlobstars_component {component text : Text} (hslash : '/' ∉ component)
    (hends : endsComponent text = true) (hne : component ≠ doubleStar) :
    collapseGlobstars ('/' :: (component ++ text)) =
      '/' :: (component ++ collapseGlobstars text) := by
  rw [← collapseGlobstars_append hslash]
  by_cases hstars : ∃ rest, component ++ text = '*' :: '*' :: rest
  · obtain ⟨rest, hrest⟩ := hstars
    have hstart : ¬ startsWithGlobstar rest = true := by
      intro hstart
      obtain ⟨more, rfl⟩ := head?_of_startsWithGlobstar hstart
      have hcut : component ++ text = doubleStar ++ '/' :: '*' :: '*' :: more := hrest
      exact hne (eq_of_append_endsComponent hslash (by decide) hends rfl hcut).1
    rw [hrest, collapseGlobstars, if_neg hstart, collapseGlobstars_cons (by decide),
      collapseGlobstars_cons (by decide)]
  · rw [collapseGlobstars]
    exact fun rest _ hrest => hstars ⟨rest, hrest⟩

namespace Token

theorem read?_slash {text : Text} (h : startsWithGlobstar ('/' :: text) ≠ true) :
    read? ('/' :: text) = (read? text).map (.char '/' :: ·) := by
  rw [read?]
  · rintro rest - rfl
    exact h rfl
  · rintro - rfl
    exact h rfl
  all_goals simp

/-- What the tokens of separated components stand for ends the component in front. -/
theorem endsComponent_of_stands {text target : Text} {tokens : List Token}
    (hends : endsComponent text = true) (hread : read? text = some tokens)
    (h : Stands tokens target) : endsComponent target = true := by
  rcases endsComponent_iff.1 hends with rfl | hhead
  · simp only [read?, Option.some.injEq] at hread
    rw [← hread, stands_nil] at h
    rw [h]
    rfl
  · obtain ⟨rest, rfl⟩ := List.head?_eq_some_iff.1 hhead
    by_cases hstart : startsWithGlobstar ('/' :: rest) = true
    · rcases startsWithGlobstar_iff.1 hstart with heq | ⟨more, heq⟩
      · rw [heq, read?] at hread
        cases hread
        obtain ⟨_, rest', ⟨after, -, rfl⟩, -, rfl⟩ := h
        rfl
      · rw [heq, read?] at hread
        obtain ⟨tokens', -, rfl⟩ := Option.map_eq_some_iff.1 hread
        obtain ⟨_, rest', ⟨names, -, rfl⟩, -, rfl⟩ := h
        cases names <;> rfl
    · rw [read?_slash hstart] at hread
      obtain ⟨tokens', -, rfl⟩ := Option.map_eq_some_iff.1 hread
      obtain ⟨after, -, rfl⟩ := stands_char_cons.1 h
      rfl

/-- A component behind a `/` stands for one name. -/
theorem stands_slash_component {component : Text} {tokens below : List Token} {text : Text}
    {names : List Text}
    (hread : read? text = some below) (hends : endsComponent text = true)
    (hnames : ∀ name ∈ names, IsName name)
    (h : ∀ target, Stands tokens target ↔ StandsBehind component below target) :
    Stands (.char '/' :: tokens) (slashed names) ↔ ∃ name names', MatchesName component name ∧
      Stands below (slashed names') ∧ names = name :: names' := by
  simp only [stands_char_cons, h]
  constructor
  · rintro ⟨_, ⟨name, after, hslash, hmatch, hafter, rfl⟩, heq⟩
    have hcut : slashed names = slashed [name] ++ after := by simpa using heq
    have hback := endsComponent_of_stands hends hread hafter
    obtain ⟨names', rfl, rfl⟩ :=
      slashed_eq_append (fun n hn => (hnames n hn).2) (by simpa using hslash) hback hcut
    exact ⟨name, names', hmatch, hafter, rfl⟩
  · rintro ⟨name, names', hmatch, hafter, rfl⟩
    exact ⟨name ++ slashed names',
      ⟨name, slashed names', (hnames name (by simp)).2, hmatch, hafter, rfl⟩, rfl⟩

/-- A `**` behind a `/` stands for at least one name at the end, and for any names in front of other
components, whose tokens are given. -/
theorem stands_slashed_doubleStar {components : List Text} {tokens : List Token}
    (hslash : ∀ component ∈ components, '/' ∉ component)
    (hread : read? (collapseGlobstars (slashed (doubleStar :: components))) = some tokens)
    {names : List Text} (hnames : ∀ name ∈ names, IsName name)
    (h : ∀ {tokens'}, read? (collapseGlobstars (slashed components)) = some tokens' →
      ∀ names' : List Text, (∀ name ∈ names', IsName name) →
        (Stands tokens' (slashed names') ↔ MatchesNames components names')) :
    Stands tokens (slashed names) ↔ MatchesNames (doubleStar :: components) names := by
  match components with
  | [] =>
    rw [show collapseGlobstars (slashed [doubleStar]) = ['/', '*', '*'] from rfl, read?] at hread
    cases hread
    rw [stands_singleton, MatchesNames.last_iff]
    constructor
    · rintro ⟨rest, -, hrest⟩ rfl
      simp at hrest
    · intro hne
      obtain ⟨name, names', rfl⟩ := List.exists_cons_of_ne_nil hne
      exact ⟨name ++ slashed names', by simp [(hnames name (by simp)).1], rfl⟩
  | component :: more =>
    have hcomponent := hslash component (by simp)
    have hstart : startsWithGlobstar (slashed (component :: more)) = true ↔
        component = doubleStar :=
      startsWithGlobstar_component hcomponent (endsComponent_slashed more)
    have hcollapse : collapseGlobstars (slashed (doubleStar :: component :: more)) =
        if startsWithGlobstar (slashed (component :: more)) then
          collapseGlobstars (slashed (component :: more))
        else '/' :: '*' :: '*' :: collapseGlobstars (slashed (component :: more)) := by
      exact collapseGlobstars.eq_1 _
    by_cases hstars : component = doubleStar
    · rw [hcollapse, if_pos (hstart.2 hstars)] at hread
      subst hstars
      rw [MatchesNames.any_any_iff]
      exact h hread names hnames
    · rw [hcollapse, if_neg fun hs => hstars (hstart.1 hs)] at hread
      have hends := (endsComponent_collapse _).trans (endsComponent_slashed more)
      rw [slashed_cons, collapseGlobstars_component hcomponent (endsComponent_slashed more) hstars,
        read?] at hread
      obtain ⟨tokens', htokens, rfl⟩ := Option.map_eq_some_iff.1 hread
      have hslashed : read? (collapseGlobstars (slashed (component :: more))) =
          some (.char '/' :: tokens') := by
        rw [slashed_cons,
          collapseGlobstars_component hcomponent (endsComponent_slashed more) hstars,
          read?_slash, htokens]
        · rfl
        · rw [Ne, startsWithGlobstar_component hcomponent hends]
          exact hstars
      rw [MatchesNames.any_iff (by simp)]
      constructor
      · rintro ⟨_, rest, ⟨taken, htaken, rfl⟩, hrest, heq⟩
        have hcut : slashed names = slashed taken ++ '/' :: rest := by simpa using heq
        obtain ⟨names', rfl, hnames'⟩ := slashed_eq_append (fun n hn => (hnames n hn).2)
          (fun n hn => (htaken n hn).2) rfl hcut
        refine ⟨taken, names', ?_, rfl⟩
        rw [← h hslashed names' fun n hn => hnames n (by simp [hn]), ← hnames', stands_char_cons]
        exact ⟨rest, hrest, rfl⟩
      · rintro ⟨taken, names', hmatch, rfl⟩
        rw [← h hslashed names' fun n hn => hnames n (by simp [hn]), stands_char_cons] at hmatch
        obtain ⟨rest, hrest, heq⟩ := hmatch
        exact ⟨slashed taken ++ ['/'], rest, ⟨taken, fun n hn => hnames n (by simp [hn]), rfl⟩,
          hrest, by simp [heq]⟩

/-- The tokens of components that stand behind their `/` stand for the names that the components
match. -/
theorem stands_slashed {components : List Text} {tokens : List Token}
    (hslash : ∀ component ∈ components, '/' ∉ component) (h : Separated (slashed components))
    (hread : read? (collapseGlobstars (slashed components)) = some tokens) {names : List Text}
    (hnames : ∀ name ∈ names, IsName name) :
    Stands tokens (slashed names) ↔ MatchesNames components names := by
  induction components generalizing tokens names with
  | nil =>
    simp only [slashed_nil, collapseGlobstars, read?, Option.some.injEq] at hread
    rw [← hread, stands_nil, MatchesNames.nil_iff]
    cases names <;> simp
  | cons component more ih =>
    have hcomponent := hslash component (by simp)
    have hmore : ∀ component ∈ more, '/' ∉ component := fun c hc => hslash c (by simp [hc])
    by_cases hstars : component = doubleStar
    · subst hstars
      have hdropped := h.of_cons (by decide) (by decide)
      have hseparated : Separated (slashed more) :=
        (hdropped.of_cons (by decide) (by decide)).of_cons (by decide) (by decide)
      exact stands_slashed_doubleStar hmore hread hnames fun htokens' names' hnames' =>
        ih hmore hseparated htokens' hnames'
    · rw [slashed_cons, collapseGlobstars_component hcomponent (endsComponent_slashed more) hstars,
        read?_slash] at hread
      · obtain ⟨tokens', htokens, rfl⟩ := Option.map_eq_some_iff.1 hread
        obtain ⟨hseparated, below, hbelow, hstands⟩ := stands_component hcomponent
          (endsComponent_slashed more) (h.of_cons (by decide) (by decide)) htokens
        have hends := (endsComponent_collapse _).trans (endsComponent_slashed more)
        rw [stands_slash_component hbelow hends hnames hstands, MatchesNames.name_iff hstars]
        constructor
        · rintro ⟨name, names', hmatch, hnames', rfl⟩
          have hrest : ∀ n ∈ names', IsName n := fun n hn => hnames n (List.mem_cons_of_mem _ hn)
          exact ⟨name, names', hmatch, (ih hmore hseparated hbelow hrest).1 hnames', rfl⟩
        · rintro ⟨name, names', hmatch, hnames', rfl⟩
          have hrest : ∀ n ∈ names', IsName n := fun n hn => hnames n (List.mem_cons_of_mem _ hn)
          exact ⟨name, names', hmatch, (ih hmore hseparated hbelow hrest).2 hnames', rfl⟩
      · rw [Ne, startsWithGlobstar_component hcomponent
          ((endsComponent_collapse _).trans (endsComponent_slashed more))]
        exact hstars

end Token

/-! ### Whole patterns -/

theorem splitOn_cons_self (sep : Char) (text : Text) :
    List.splitOn sep (sep :: text) = [] :: List.splitOn sep text := by
  rw [List.splitOn_cons_eq_if_modifyHead, if_pos (beq_self_eq_true sep)]

theorem splitOn_cons_of_ne {sep c : Char} (h : c ≠ sep) (text : Text) :
    List.splitOn sep (c :: text) = (List.splitOn sep text).modifyHead (List.cons c) := by
  rw [List.splitOn_cons_eq_if_modifyHead, if_neg (by simpa using h)]

theorem not_mem_of_mem_splitOn {sep : Char} {text piece : Text}
    (h : piece ∈ List.splitOn sep text) :
    sep ∉ piece := by
  induction text generalizing piece with
  | nil => simp_all
  | cons c rest ih =>
    by_cases hc : c = sep
    · rw [hc, splitOn_cons_self] at h
      rcases List.mem_cons.1 h with rfl | h
      · simp
      · exact ih h
    · rw [splitOn_cons_of_ne hc] at h
      obtain ⟨first, more, hsplit⟩ := List.exists_cons_of_ne_nil (List.splitOn_ne_nil sep rest)
      rw [hsplit] at h ih
      rcases List.mem_cons.1 h with rfl | h
      · simp [Ne.symm hc, ih List.mem_cons_self]
      · exact ih (List.mem_cons_of_mem _ h)

/-- The text in front of a text that matches a path is dropped with its `/`. -/
theorem dropGlobstars_doubleStar (text : Text) :
    dropGlobstars (doubleStar ++ '/' :: text) = dropGlobstars text := by
  rw [doubleStar, List.cons_append, List.cons_append, List.nil_append, dropGlobstars]

theorem dropGlobstars_component {component text : Text} (hslash : '/' ∉ component)
    (hends : endsComponent text = true) (h : component = doubleStar → text = []) :
    dropGlobstars (component ++ text) = component ++ text := by
  rw [dropGlobstars]
  intro rest hrest
  have hcut : component ++ text = doubleStar ++ '/' :: rest := hrest
  obtain ⟨hstars, htext⟩ := eq_of_append_endsComponent hslash (by decide) hends rfl hcut
  rw [h hstars] at htext
  cases htext

/-- To drop the `**` in front of a text is to drop the first of its components as long as they are
`**` and not the last. -/
theorem exists_dropGlobstars {components : List Text} (hne : components ≠ [])
    (hslash : ∀ component ∈ components, '/' ∉ component) :
    ∃ front component more, components = front ++ component :: more ∧
      (∀ c ∈ front, c = doubleStar) ∧ (component = doubleStar → more = []) ∧
      dropGlobstars (List.intercalate ['/'] components) = component ++ slashed more := by
  induction components with
  | nil => exact absurd rfl hne
  | cons first components ih =>
    have hfirst := hslash first (by simp)
    rw [intercalate_cons]
    by_cases h : first = doubleStar ∧ components ≠ []
    · obtain ⟨rfl, hcomponents⟩ := h
      obtain ⟨front, component, more, rfl, hfront, hlast, hdrop⟩ :=
        ih hcomponents fun c hc => hslash c (by simp [hc])
      refine ⟨doubleStar :: front, component, more, rfl, by simpa using hfront, hlast, ?_⟩
      rw [slashed_eq_cons_intercalate hcomponents, dropGlobstars_doubleStar, hdrop]
    · have hlast : first = doubleStar → components = [] := by
        intro hstars
        by_contra hcomponents
        exact h ⟨hstars, hcomponents⟩
      refine ⟨[], first, components, rfl, by simp, hlast, ?_⟩
      refine dropGlobstars_component hfirst (endsComponent_slashed components) fun hstars => ?_
      rw [hlast hstars]
      rfl

theorem eq_unrooted (pattern : Text) :
    pattern = '/' :: unrooted pattern ∨ pattern.head? ≠ some '/' ∧ unrooted pattern = pattern := by
  unfold unrooted
  split
  · exact Or.inl rfl
  · next h =>
    refine Or.inr ⟨fun hhead => ?_, rfl⟩
    obtain ⟨rest, rfl⟩ := List.head?_eq_some_iff.1 hhead
    exact h rest rfl

/-- The anchor of a pattern is its `/` in front, or the `**` in front and their `/`. -/
theorem splitAnchor_eq (pattern : Text) :
    (splitAnchor pattern).2 = dropGlobstars (unrooted pattern) ∧
      ((splitAnchor pattern).1 = true ↔ pattern.head? ≠ some '/' ∨
        ∃ rest, unrooted pattern = doubleStar ++ '/' :: rest) := by
  by_cases h : ∃ rest, unrooted pattern = doubleStar ++ '/' :: rest
  · obtain ⟨rest, hrest⟩ := h
    rw [hrest, dropGlobstars_doubleStar]
    rcases eq_unrooted pattern with heq | ⟨hhead, heq⟩
    · rw [heq, hrest]
      exact ⟨rfl, by simp [splitAnchor, dropLeadingGlobstars?, doubleStar]⟩
    · rw [← heq, hrest]
      exact ⟨rfl, by simp [splitAnchor, dropLeadingGlobstars?, doubleStar]⟩
  · have hdrop : dropGlobstars (unrooted pattern) = unrooted pattern := by
      rw [dropGlobstars]
      exact fun rest hrest => h ⟨rest, hrest⟩
    have hnone : dropLeadingGlobstars? pattern = none := by
      unfold dropLeadingGlobstars?
      split
      · next rest => exact absurd ⟨rest, rfl⟩ h
      · next rest => exact absurd ⟨rest, rfl⟩ h
      · rfl
    simp only [h, or_false, hdrop]
    unfold splitAnchor
    rw [hnone]
    dsimp only
    rcases eq_unrooted pattern with heq | ⟨hhead, heq⟩
    · rw [heq]
      exact ⟨rfl, by simp⟩
    · rw [heq]
      split
      · simp at hhead
      · exact ⟨rfl, by simp [hhead]⟩

theorem intercalate_namesOf (pattern : Text) :
    List.intercalate ['/'] (namesOf pattern) = unrooted pattern := List.intercalate_splitOn '/'

/-- A path matches some components below one of its `/`, or from its beginning, just when the last
of its names do. -/
theorem exists_start_iff {names : List Text} {P : Text → Prop} (hne : names ≠ [])
    (hnames : ∀ name ∈ names, IsName name) :
    (∃ start ∈ starts (List.intercalate ['/'] names), P start) ↔
      ∃ before below, below ≠ [] ∧ names = before ++ below ∧ P (List.intercalate ['/'] below) := by
  have hslashed := slashed_eq_cons_intercalate hne
  constructor
  · rintro ⟨start, hstart, hP⟩
    rcases mem_starts.1 hstart with rfl | ⟨before, hbefore⟩
    · exact ⟨[], names, hne, rfl, hP⟩
    · rw [hbefore, ← List.cons_append] at hslashed
      obtain ⟨front, below, rfl, hbelow⟩ :=
        slashed_eq_append_slash (fun n hn => (hnames n hn).2) hslashed
      have hbelowne : below ≠ [] := by
        rintro rfl
        simp at hbelow
      rw [slashed_eq_cons_intercalate hbelowne, List.cons.injEq] at hbelow
      exact ⟨front, below, hbelowne, rfl, hbelow.2 ▸ hP⟩
  · rintro ⟨before, below, hbelow, rfl, hP⟩
    refine ⟨_, mem_starts.2 ?_, hP⟩
    rw [slashed_append, slashed_eq_cons_intercalate hbelow] at hslashed
    cases hbefore : slashed before with
    | nil =>
      rw [hbefore] at hslashed
      exact Or.inl (List.cons.inj hslashed).2.symm
    | cons c front =>
      rw [hbefore] at hslashed
      exact Or.inr ⟨front, (List.cons.inj hslashed).2.symm⟩

/-- The parts of a pattern that its matcher is made from: the `**` in front, the first component
behind them, or the last `**`, and the components that follow. -/
structure Parts (pattern : Text) (front : List Text) (component : Text)
    (more : List Text) : Prop where
  namesOf_eq : namesOf pattern = front ++ component :: more
  front_eq : ∀ c ∈ front, c = doubleStar
  last : component = doubleStar → more = []
  drop_eq : dropGlobstars (unrooted pattern) = component ++ slashed more

theorem exists_parts (pattern : Text) : ∃ front component more,
    Parts pattern front component more := by
  have hslash : ∀ c ∈ namesOf pattern, '/' ∉ c := fun c hc => not_mem_of_mem_splitOn hc
  have hne : namesOf pattern ≠ [] := List.splitOn_ne_nil '/' _
  obtain ⟨front, component, more, hnames, hfront, hlast, hdrop⟩ := exists_dropGlobstars hne hslash
  rw [intercalate_namesOf] at hdrop
  exact ⟨front, component, more, hnames, hfront, hlast, hdrop⟩

namespace Parts

variable {pattern component : Text} {front more : List Text}

theorem not_mem_slash (h : Parts pattern front component more) :
    ∀ c ∈ component :: more, '/' ∉ c := by
  intro c hc
  have hmem : c ∈ namesOf pattern := by
    rw [h.namesOf_eq]
    exact List.mem_append_right _ hc
  exact not_mem_of_mem_splitOn hmem

theorem core_eq (h : Parts pattern front component more) :
    core pattern = component ++ collapseGlobstars (slashed more) := by
  rw [core, (splitAnchor_eq pattern).1, h.drop_eq,
    collapseGlobstars_append (h.not_mem_slash component List.mem_cons_self)]

/-- Only a `**` at the end has a core without a `/` that is `**`. -/
theorem eq_of_core_eq (h : Parts pattern front component more) (hcore : core pattern = doubleStar) :
    component = doubleStar ∧ more = [] := by
  rw [h.core_eq] at hcore
  have hmore : more = [] := by
    by_contra hmore
    have hmem : '/' ∈ collapseGlobstars (slashed more) := by
      refine List.mem_of_head? ?_
      rw [head?_collapseGlobstars, slashed_eq_cons_intercalate hmore]
      rfl
    have hmem' : '/' ∈ component ++ collapseGlobstars (slashed more) := by simp [hmem]
    rw [hcore] at hmem'
    simp [doubleStar] at hmem'
  subst hmore
  exact ⟨by simpa [collapseGlobstars] using hcore, rfl⟩

/-- An anchored pattern has no `**` in front. -/
theorem front_eq_nil (h : Parts pattern front component more) (hanchored : IsAnchored pattern) :
    front = [] := by
  have hhead := hanchored.2
  rw [h.namesOf_eq] at hhead
  cases front with
  | nil => rfl
  | cons c front => exact absurd (congrArg some (h.front_eq c List.mem_cons_self)) hhead

theorem separated (h : Parts pattern front component more) (hpattern : Separated pattern) :
    Separated (component ++ slashed more) := by
  have hdrop : ∀ text, Separated text → Separated (dropGlobstars text) := by
    intro text htext
    fun_induction dropGlobstars text with
    | case1 rest ih =>
      have hrest := (htext.of_cons (by decide) (by decide)).of_cons (by decide) (by decide)
      exact ih (hrest.of_cons (by decide) (by decide))
    | case2 => exact htext
  rw [← h.drop_eq]
  refine hdrop _ ?_
  rcases eq_unrooted pattern with heq | ⟨-, heq⟩
  · rw [heq] at hpattern
    exact hpattern.of_cons (by decide) (by decide)
  · rwa [heq]

/-- A pattern whose first component is not `**` is anchored when it begins with `/` and nothing is
in front of that component. -/
theorem isAnchored_iff (h : Parts pattern front component more) (hne : component ≠ doubleStar) :
    IsAnchored pattern ↔ (splitAnchor pattern).1 = false := by
  have hstart : (∃ rest, unrooted pattern = doubleStar ++ '/' :: rest) ↔
      (namesOf pattern).head? = some doubleStar := by
    obtain ⟨first, others, hfirst⟩ :=
      List.exists_cons_of_ne_nil (List.splitOn_ne_nil '/' (unrooted pattern))
    have hnames : namesOf pattern = first :: others := hfirst
    have hslash : '/' ∉ first := not_mem_of_mem_splitOn (hfirst ▸ List.mem_cons_self)
    rw [← intercalate_namesOf, hnames, intercalate_cons, List.head?_cons, Option.some.injEq]
    constructor
    · rintro ⟨rest, hrest⟩
      exact (eq_of_append_endsComponent hslash (by decide) (endsComponent_slashed others) rfl
        hrest).1
    · rintro rfl
      have hothers : others ≠ [] := by
        rintro rfl
        have hsingle := h.namesOf_eq.symm.trans hnames
        cases front with
        | nil => exact hne (List.cons.inj hsingle).1
        | cons c front => simp at hsingle
      exact ⟨_, by rw [slashed_eq_cons_intercalate hothers]⟩
  rw [IsAnchored, ← Bool.not_eq_true, (splitAnchor_eq pattern).2, hstart]
  simp

end Parts

/-- The `**` in front of components add nothing to what the last names of a path match. -/
theorem exists_below_iff {front components names : List Text} (hfront : ∀ c ∈ front, c = doubleStar)
    (hne : components ≠ []) :
    (∃ before below, below ≠ [] ∧ names = before ++ below ∧
      MatchesNames (front ++ components) below) ↔
      ∃ before below, below ≠ [] ∧ names = before ++ below ∧ MatchesNames components below := by
  induction front with
  | nil => rfl
  | cons first front ih =>
    obtain rfl := hfront first (by simp)
    rw [← ih fun c hc => hfront c (by simp [hc]), List.cons_append]
    have hne' : front ++ components ≠ [] := by simp [hne]
    constructor
    · rintro ⟨before, below, -, rfl, hmatch⟩
      obtain ⟨taken, below', hmatch', rfl⟩ := (MatchesNames.any_iff hne').1 hmatch
      exact ⟨before ++ taken, below', hmatch'.ne_nil hne', by simp, hmatch'⟩
    · rintro ⟨before, below, hbelow, rfl, hmatch⟩
      exact ⟨before, below, hbelow, rfl, (MatchesNames.any_iff hne').2 ⟨[], below, hmatch, rfl⟩⟩

theorem getLast?_intercalate {names : List Text} (hne : names ≠ [])
    (hnames : ∀ name ∈ names, IsName name) :
    (List.intercalate ['/'] names).getLast? ≠ some '/' := by
  have hslashed := slashed_eq_cons_intercalate hne
  obtain ⟨before, last, rfl⟩ := (List.eq_nil_or_concat names).resolve_left hne
  rw [List.concat_eq_append] at hnames hslashed ⊢
  have hlast := hnames last (by simp)
  obtain ⟨name, c, rfl⟩ := (List.eq_nil_or_concat last).resolve_left hlast.1
  intro h
  have hslash : (slashed (before ++ [name.concat c])).getLast? = some '/' := by
    rw [hslashed, List.getLast?_cons, h]
    rfl
  obtain rfl : c = '/' := by simpa [List.getLast?_append, List.getLast?_cons] using hslash
  simpa using hlast.2

theorem eq_nil_of_dropGlobstars {text : Text} (h : dropGlobstars text = []) :
    text = [] ∨ text.getLast? = some '/' := by
  fun_induction dropGlobstars text with
  | case1 rest ih =>
    rcases ih h with rfl | hlast
    · exact Or.inr rfl
    · refine Or.inr ?_
      rw [List.getLast?_cons_cons, List.getLast?_cons_cons, List.getLast?_cons, hlast]
      rfl
  | case2 => exact Or.inl h

/-- A pattern that matches everything matches every path by its components, if there is text behind
its last `/`. -/
theorem matchesPath_of_matchesAll {pattern : Text} (h : MatchesAll pattern)
    (hlast : pattern.getLast? ≠ some '/') {names : List Text} (hne : names ≠ []) :
    MatchesPath pattern names := by
  obtain ⟨front, component, more, hparts⟩ := exists_parts pattern
  have hstars : core pattern = ['*', '*'] → MatchesPath pattern names := by
    intro hcore
    obtain ⟨rfl, rfl⟩ := hparts.eq_of_core_eq hcore
    constructor
    · intro hanchored
      refine absurd ?_ hanchored.2
      rw [hparts.namesOf_eq, hparts.front_eq_nil hanchored]
      rfl
    · intro _
      rw [hparts.namesOf_eq, exists_below_iff hparts.front_eq (by simp)]
      exact ⟨[], names, hne, rfl, .last hne⟩
  rcases h with hmem | ⟨hpattern, hcore | hcore⟩
  · have hmem' : pattern = ['*'] ∨ core pattern = ['*', '*'] := by
      simp only [matchAll, List.mem_cons, List.not_mem_nil, or_false] at hmem
      rcases hmem with rfl | rfl | rfl
      · exact Or.inl rfl
      · exact Or.inr rfl
      · exact Or.inr rfl
    rcases hmem' with rfl | hcore
    · refine ⟨fun hanchored => by simp [IsAnchored] at hanchored, fun _ => ?_⟩
      obtain ⟨before, last, rfl⟩ := (List.eq_nil_or_concat names).resolve_left hne
      refine ⟨before, [last], by simp, by simp, ?_⟩
      exact .name (by decide) (MatchesName.star_iff.2 ⟨last, [], .nil, by simp⟩) .nil
    · exact hstars hcore
  · rw [hparts.core_eq, List.append_eq_nil_iff, collapseGlobstars_eq_nil] at hcore
    have hdrop : dropGlobstars (unrooted pattern) = [] := by
      rw [hparts.drop_eq, hcore.1, hcore.2]
      rfl
    refine absurd ?_ hlast
    rcases eq_unrooted pattern with heq | ⟨-, heq⟩
    · rw [heq, List.getLast?_cons]
      rcases eq_nil_of_dropGlobstars hdrop with hnil | hslash
      · rw [hnil]
        rfl
      · rw [hslash]
        rfl
    · rw [heq] at hdrop
      exact (eq_nil_of_dropGlobstars hdrop).resolve_left hpattern
  · exact hstars hcore

/-- What the tokens of a pattern stand for are the paths whose names its components match. -/
theorem Parts.stands_iff {pattern component : Text} {front more : List Text} {tokens : List Token}
    (h : Parts pattern front component more) (hpattern : Separated pattern)
    (hne : component ≠ doubleStar) (hread : Token.read? (core pattern) = some tokens)
    {names : List Text} (hnames : ∀ name ∈ names, IsName name) (hnonempty : names ≠ []) :
    Token.Stands tokens (List.intercalate ['/'] names) ↔
      MatchesNames (component :: more) names := by
  rw [h.core_eq] at hread
  obtain ⟨hseparated, below, hbelow, hstands⟩ := Token.stands_component
    (h.not_mem_slash component List.mem_cons_self) (endsComponent_slashed more)
    (h.separated hpattern) hread
  have hends := (endsComponent_collapse _).trans (endsComponent_slashed more)
  have hslash := Token.stands_slash_component hbelow hends hnames hstands
  rw [slashed_eq_cons_intercalate hnonempty, Token.stands_char_cons] at hslash
  have hmore : ∀ c ∈ more, '/' ∉ c := fun c hc => h.not_mem_slash c (List.mem_cons_of_mem _ hc)
  have hjoin : Token.Stands tokens (List.intercalate ['/'] names) ↔ ∃ rest,
      Token.Stands tokens rest ∧ '/' :: List.intercalate ['/'] names = '/' :: rest := by simp
  rw [hjoin, hslash, MatchesNames.name_iff hne]
  constructor
  · rintro ⟨name, names', hmatch, hnames', rfl⟩
    have hrest : ∀ n ∈ names', IsName n := fun n hn => hnames n (List.mem_cons_of_mem _ hn)
    exact ⟨name, names', hmatch, (Token.stands_slashed hmore hseparated hbelow hrest).1 hnames',
      rfl⟩
  · rintro ⟨name, names', hmatch, hnames', rfl⟩
    have hrest : ∀ n ∈ names', IsName n := fun n hn => hnames n (List.mem_cons_of_mem _ hn)
    exact ⟨name, names', hmatch, (Token.stands_slashed hmore hseparated hbelow hrest).2 hnames',
      rfl⟩

/-- The matcher of a pattern whose `/` are all separators accepts the paths that the pattern matches
by its components. -/
theorem accepts_iff_matchesPath {pattern : Text} {directoryOnly : Bool} {m : Matcher}
    {names : List Text} (hcheck : checkText pattern = .ok pattern)
    (hblank : ∀ c ∈ pattern, Text.isBlank c = false)
    (hescaped : ∀ units, pieces pattern = some units → .pair '/' ∉ units)
    (hlast : pattern.getLast? ≠ some '/') (hclasses : ∀ cls ∈ classes pattern, cls.AvoidsSlash)
    (hcompile : compile pattern directoryOnly = .ok m) (hne : names ≠ [])
    (hnames : ∀ name ∈ names, IsName name) :
    m.accepts (relativePath names directoryOnly) = true ↔ MatchesPath pattern names := by
  obtain ⟨hpattern, -, hgrammar⟩ := (checkText_ok_iff hblank).1 hcheck
  have hseparated : Separated pattern := by
    refine ⟨?_, hclasses⟩
    unfold isGrammatical at hgrammar
    split at hgrammar
    · cases hgrammar
    · next units hunits => exact ⟨units, hunits, hescaped units hunits⟩
  rw [relativePath, accepts_iff_selects hcompile hpattern (getLast?_intercalate hne hnames)]
  by_cases hall : MatchesAll pattern
  · exact iff_of_true (Or.inl hall) (matchesPath_of_matchesAll hall hlast hne)
  · obtain ⟨-, ⟨-, hall'⟩ | ⟨-, hnil, -⟩ | ⟨tokens, hread, -⟩⟩ := compile_ok hcompile
    · exact absurd hall' hall
    · exact absurd hnil hpattern
    · obtain ⟨front, component, more, hparts⟩ := exists_parts pattern
      have hcomponent : component ≠ doubleStar := by
        intro hstars
        refine hall (Or.inr ⟨hpattern, Or.inr ?_⟩)
        rw [hparts.core_eq, hparts.last hstars, hstars]
        rfl
      have hanchored := hparts.isAnchored_iff hcomponent
      have hselects : Selects pattern (List.intercalate ['/'] names) ↔
          if (splitAnchor pattern).1 then
            ∃ start ∈ starts (List.intercalate ['/'] names), Token.Stands tokens start
          else Token.Stands tokens (List.intercalate ['/'] names) := by
        simp [Selects, hall, hread]
      rw [hselects, MatchesPath, hanchored]
      cases hanywhere : (splitAnchor pattern).1 with
      | false =>
        have hfront := hparts.front_eq_nil (hanchored.2 hanywhere)
        simp only [Bool.false_eq_true, if_false, forall_const, not_true_eq_false, false_implies,
          and_true]
        rw [hparts.stands_iff hseparated hcomponent hread hnames hne, hparts.namesOf_eq, hfront,
          List.nil_append]
      | true =>
        simp only [if_true, Bool.true_eq_false, false_implies, not_false_eq_true, true_and,
          forall_const]
        rw [hparts.namesOf_eq, exists_below_iff hparts.front_eq (by simp),
          exists_start_iff hne hnames]
        constructor
        · rintro ⟨before, below, hbelow, rfl, hstands⟩
          have hbelow' : ∀ n ∈ below, IsName n := fun n hn => hnames n (List.mem_append_right _ hn)
          exact ⟨before, below, hbelow, rfl,
            (hparts.stands_iff hseparated hcomponent hread hbelow' hbelow).1 hstands⟩
        · rintro ⟨before, below, hbelow, rfl, hstands⟩
          have hbelow' : ∀ n ∈ below, IsName n := fun n hn => hnames n (List.mem_append_right _ hn)
          exact ⟨before, below, hbelow, rfl,
            (hparts.stands_iff hseparated hcomponent hread hbelow' hbelow).2 hstands⟩

/-- A pattern with every kind of component, on a path below a directory that `**` stands for. -/
theorem accepts_iff_matchesPath_below :
    ∃ m, compile "/src/**/[ab]?\\*.*" false = .ok m ∧
      m.accepts (relativePath ["src".toList, "x".toList, "y".toList, "b1*.c".toList] false) = true ∧
      MatchesPath "/src/**/[ab]?\\*.*" ["src".toList, "x".toList, "y".toList, "b1*.c".toList] := by
  have hcompile : ∃ m, compile "/src/**/[ab]?\\*.*" false = .ok m ∧
      m.accepts
        (relativePath ["src".toList, "x".toList, "y".toList, "b1*.c".toList] false) = true :=
    ⟨_, by with_unfolding_all rfl, by decide⟩
  have hblank : ∀ c ∈ "/src/**/[ab]?\\*.*".toList, Text.isBlank c = false := by
    have hall : "/src/**/[ab]?\\*.*".toList.all (!Text.isBlank ·) = true := by decide
    simpa using List.all_eq_true.1 hall
  have hescaped : ∀ units, pieces "/src/**/[ab]?\\*.*" = some units → .pair '/' ∉ units := by
    intro units hunits
    cases hunits
    decide
  have hclasses : ∀ cls ∈ classes "/src/**/[ab]?\\*.*", cls.AvoidsSlash := by
    have hone : classes "/src/**/[ab]?\\*.*" = [⟨false, [⟨'a', false⟩, ⟨'b', false⟩]⟩] := by
      with_unfolding_all rfl
    rw [hone]
    decide
  obtain ⟨m, hm, haccepts⟩ := hcompile
  exact ⟨m, hm, haccepts, (accepts_iff_matchesPath rfl hblank hescaped (by decide) hclasses hm
    (by decide) (by decide)).1 haccepts⟩
end PathRights.Pattern
