import Mathlib.Data.List.Forall2
import PathRights.Proofs.Pattern.Components
import PathRights.Proofs.Rule.Line

/-! How deep the entries are that a pattern selects. A pattern that begins with `/` and has no `**`
is meant for entries at the depth that it is written with. A class breaks this where it accepts a
`/` of the path. `accepts_depth_iff` says exactly when it does not: the tokens between those that
take nothing but a `/` are as many groups as there are components, and no class inside a group
accepts a `/`. A class at the end of a group does no harm, since no name on a path is empty. -/

namespace PathRights

namespace Text

/-- A text is cut where its parts are cut and between them. -/
theorem splitOn_intercalate (sep : Char) {pieces : List Text} (hne : pieces ≠ []) :
    List.splitOn sep (List.intercalate [sep] pieces) = pieces.flatMap (List.splitOn sep) := by
  induction pieces with
  | nil => exact absurd rfl hne
  | cons piece pieces ih =>
    cases pieces with
    | nil => simp
    | cons next pieces =>
      rw [List.intercalate_cons_cons, List.append_assoc, List.singleton_append,
        List.splitOn_append_cons_self, ih (List.cons_ne_nil next pieces)]
      rfl

end Text

namespace Pattern

/-! ### Groups of tokens -/

theorem CharClass.accepts_iff {cls : CharClass} (h : cls.negated = false) {c : Char} :
    cls.accepts c = true ↔ ∃ member ∈ cls.members, member.covers c = true := by
  simp [accepts, h]

namespace Token

/-- The token stands for `/` and for nothing else. -/
def isSeparator : Token → Bool
  | .char c => c == '/'
  | .bracket cls => !cls.negated && cls.members.all (·.ends == ('/', '/'))
  | _ => false

/-- The tokens between those that stand for `/` only. -/
def groups : List Token → List (List Token)
  | [] => [[]]
  | token :: tokens =>
    if token.isSeparator then [] :: groups tokens
    else
      match groups tokens with
      | [] => [[token]]
      | group :: more => (token :: group) :: more

/-- The token is one that a pattern without `**` can have. A class of it accepts some character, and
a negated class accepts the null character. -/
def IsProper : Token → Prop
  | .span | .below => False
  | .row count => count ≠ 0
  | .bracket cls => cls.members ≠ [] ∧ (∀ member ∈ cls.members, member.isDescending = false) ∧
      cls.members.any (·.covers '\x00') = false
  | _ => True

theorem takes_of_isSeparator {token : Token} (hproper : token.IsProper)
    (h : token.isSeparator = true) (text : Text) : token.Takes text ↔ text = ['/'] := by
  cases token with
  | char c =>
    obtain rfl : c = '/' := by simpa [isSeparator] using h
    rfl
  | bracket cls =>
    simp only [isSeparator, Bool.and_eq_true, Bool.not_eq_true', List.all_eq_true, beq_iff_eq] at h
    have hcovers : ∀ member ∈ cls.members, ∀ c, member.covers c = true ↔ c = '/' := by
      intro member hmem c
      have hends := h.2 member hmem
      cases member with
      | single item =>
        simp only [ClassMember.ends, Prod.mk.injEq] at hends
        simp [ClassMember.covers, hends.1]
      | range low high =>
        simp only [ClassMember.ends, Prod.mk.injEq] at hends
        simp only [ClassMember.covers, hends.1, hends.2, Bool.and_eq_true, decide_eq_true_eq]
        exact ⟨fun hc => Char.le_antisymm hc.2 hc.1, fun hc => by simp [hc]⟩
    have haccepts : ∀ c, cls.accepts c = true ↔ c = '/' := by
      intro c
      obtain ⟨member, hmember⟩ := List.exists_mem_of_ne_nil _ hproper.1
      rw [CharClass.accepts_iff h.1]
      constructor
      · rintro ⟨member, hmem, hc⟩
        exact (hcovers member hmem c).1 hc
      · exact fun hc => ⟨member, hmember, (hcovers member hmember c).2 hc⟩
    simp only [Takes, haccepts]
    constructor
    · rintro ⟨c, rfl, rfl⟩
      rfl
    · rintro rfl
      exact ⟨'/', rfl, rfl⟩
  | row | star | span | below => simp [isSeparator] at h

/-- Every other token can stand for a text that is not empty and has no `/`. -/
theorem exists_takes {token : Token} (hproper : token.IsProper) (h : token.isSeparator = false) :
    ∃ taken, token.Takes taken ∧ taken ≠ [] ∧ '/' ∉ taken := by
  cases token with
  | char c =>
    have hc : c ≠ '/' := by simpa [isSeparator] using h
    exact ⟨[c], rfl, by simp, by simpa using Ne.symm hc⟩
  | row count =>
    have hcount : count ≠ 0 := hproper
    have hslash : '/' ∉ List.replicate count 'a' :=
      fun hmem => absurd (List.eq_of_mem_replicate hmem) (by decide)
    exact ⟨List.replicate count 'a', ⟨by simp, hslash⟩, by simpa using hcount, hslash⟩
  | star => exact ⟨['a'], by simp [Takes], by simp, by simp⟩
  | bracket cls =>
    obtain ⟨hne, hascending, hnull⟩ := hproper
    have hchar : ∃ c, cls.accepts c = true ∧ c ≠ '/' := by
      cases hnegated : cls.negated with
      | true =>
        refine ⟨'\x00', ?_, by decide⟩
        rw [CharClass.accepts, hnull, hnegated]
        rfl
      | false =>
        simp only [isSeparator, hnegated, Bool.not_false, Bool.true_and, List.all_eq_false] at h
        obtain ⟨member, hmem, hends⟩ := h
        have hcovers : ∃ c, member.covers c = true ∧ c ≠ '/' := by
          cases member with
          | single item =>
            exact ⟨item.char, by simp [ClassMember.covers], by simpa [ClassMember.ends] using hends⟩
          | range low high =>
            have hle : low.char ≤ high.char := by
              simpa [ClassMember.isDescending] using hascending _ hmem
            by_cases hlow : low.char = '/'
            · refine ⟨high.char, by simp [ClassMember.covers, hle], ?_⟩
              simpa [ClassMember.ends, hlow] using hends
            · exact ⟨low.char, by simp [ClassMember.covers, hle], hlow⟩
        obtain ⟨c, hc, hslash⟩ := hcovers
        exact ⟨c, (CharClass.accepts_iff hnegated).2 ⟨member, hmem, hc⟩, hslash⟩
    obtain ⟨c, hc, hslash⟩ := hchar
    exact ⟨[c], ⟨c, rfl, hc⟩, by simp, by simpa using Ne.symm hslash⟩
  | span | below => exact hproper.elim

/-- Only a class takes a `/` where the token can stand for something else. -/
theorem eq_bracket_of_takes {token : Token} (hproper : token.IsProper)
    (h : token.isSeparator = false) {taken : Text} (htaken : token.Takes taken)
    (hslash : '/' ∈ taken) :
    ∃ cls, token = .bracket cls ∧ cls.accepts '/' = true ∧ taken = ['/'] := by
  cases token with
  | char c =>
    obtain rfl : taken = [c] := htaken
    obtain rfl : '/' = c := by simpa using hslash
    simp [isSeparator] at h
  | row count => exact absurd hslash htaken.2
  | star => exact absurd hslash htaken
  | bracket cls =>
    obtain ⟨c, rfl, hc⟩ := htaken
    obtain rfl : '/' = c := by simpa using hslash
    exact ⟨cls, rfl, hc, rfl⟩
  | span | below => exact hproper.elim

theorem groups_ne_nil (tokens : List Token) : groups tokens ≠ [] := by
  cases tokens with
  | nil => simp [groups]
  | cons token tokens =>
    unfold groups
    split
    · simp
    · split <;> simp

theorem groups_cons {token : Token} (h : token.isSeparator = false) (tokens : List Token) :
    ∃ group more, groups tokens = group :: more ∧
      groups (token :: tokens) = (token :: group) :: more := by
  obtain ⟨group, more, hgroups⟩ := List.exists_cons_of_ne_nil (groups_ne_nil tokens)
  exact ⟨group, more, hgroups, by rw [groups, if_neg (by simp [h]), hgroups]⟩

/-- The tokens of a group are among the tokens, and none of them is a separator. -/
theorem of_mem_groups {tokens group : List Token} {token : Token} (hgroup : group ∈ groups tokens)
    (htoken : token ∈ group) : token ∈ tokens ∧ token.isSeparator = false := by
  induction tokens generalizing group with
  | nil => simp_all [groups]
  | cons first tokens ih =>
    by_cases hfirst : first.isSeparator = true
    · rw [groups, if_pos hfirst] at hgroup
      rcases List.mem_cons.1 hgroup with rfl | hgroup
      · simp at htoken
      · obtain ⟨hmem, hseparator⟩ := ih hgroup htoken
        exact ⟨List.mem_cons_of_mem _ hmem, hseparator⟩
    · obtain ⟨group', more, hgroups, hcons⟩ := groups_cons (by simpa using hfirst) tokens
      rw [hcons] at hgroup
      rw [hgroups] at ih
      rcases List.mem_cons.1 hgroup with rfl | hgroup
      · rcases List.mem_cons.1 htoken with rfl | htoken
        · exact ⟨List.mem_cons_self, by simpa using hfirst⟩
        · obtain ⟨hmem, hseparator⟩ := ih List.mem_cons_self htoken
          exact ⟨List.mem_cons_of_mem _ hmem, hseparator⟩
      · obtain ⟨hmem, hseparator⟩ := ih (List.mem_cons_of_mem _ hgroup) htoken
        exact ⟨List.mem_cons_of_mem _ hmem, hseparator⟩

/-- The tokens stand for the texts of their groups, joined with `/`. -/
theorem stands_iff_groups {tokens : List Token} (hproper : ∀ token ∈ tokens, token.IsProper)
    {text : Text} : Stands tokens text ↔
      ∃ texts, List.Forall₂ Stands (groups tokens) texts ∧ text = List.intercalate ['/'] texts := by
  induction tokens generalizing text with
  | nil =>
    rw [stands_nil, groups]
    constructor
    · rintro rfl
      exact ⟨[[]], .cons rfl .nil, rfl⟩
    · rintro ⟨texts, h, rfl⟩
      obtain ⟨first, others, hnil, hothers, rfl⟩ := List.forall₂_cons_left_iff.1 h
      rw [List.forall₂_nil_left_iff.1 hothers, stands_nil.1 hnil]
      rfl
  | cons token tokens ih =>
    have hrest := @ih (fun t ht => hproper t (List.mem_cons_of_mem _ ht))
    by_cases hseparator : token.isSeparator = true
    · have htakes := takes_of_isSeparator (hproper token List.mem_cons_self) hseparator
      rw [groups, if_pos hseparator]
      simp only [Stands, htakes, hrest]
      have hjoin : ∀ {texts : List Text}, List.Forall₂ Stands (groups tokens) texts →
          List.intercalate ['/'] ([] :: texts) = '/' :: List.intercalate ['/'] texts := by
        intro texts htexts
        rw [intercalate_cons, slashed_eq_cons_intercalate, List.nil_append]
        rintro rfl
        exact groups_ne_nil tokens (List.forall₂_nil_right_iff.1 htexts)
      constructor
      · rintro ⟨_, _, rfl, ⟨texts, htexts, rfl⟩, rfl⟩
        exact ⟨[] :: texts, .cons rfl htexts, (hjoin htexts).symm⟩
      · rintro ⟨_, h, rfl⟩
        obtain ⟨first, texts, hnil, htexts, rfl⟩ := List.forall₂_cons_left_iff.1 h
        rw [stands_nil.1 hnil, hjoin htexts]
        exact ⟨['/'], _, rfl, ⟨texts, htexts, rfl⟩, rfl⟩
    · obtain ⟨group, more, hgroups, hcons⟩ := groups_cons (by simpa using hseparator) tokens
      rw [hcons]
      rw [hgroups] at hrest
      simp only [Stands, hrest]
      constructor
      · rintro ⟨taken, _, htaken, ⟨texts, h, rfl⟩, rfl⟩
        obtain ⟨first, others, hfirst, hothers, rfl⟩ := List.forall₂_cons_left_iff.1 h
        exact ⟨(taken ++ first) :: others, .cons ⟨taken, first, htaken, hfirst, rfl⟩ hothers,
          by simp [intercalate_cons]⟩
      · rintro ⟨texts, h, rfl⟩
        obtain ⟨_, others, ⟨taken, first, htaken, hfirst, rfl⟩, hothers, rfl⟩ :=
          List.forall₂_cons_left_iff.1 h
        exact ⟨taken, _, htaken, ⟨first :: others, .cons hfirst hothers, rfl⟩,
          by simp [intercalate_cons]⟩

/-- A group that stands for a text with a `/` inside has a class inside that takes it. -/
theorem exists_bracket_of_stands {group : List Token} (hproper : ∀ token ∈ group, token.IsProper)
    (hseparator : ∀ token ∈ group, token.isSeparator = false) {before after : Text}
    (h : Stands group (before ++ '/' :: after)) :
    ∃ front cls back, group = front ++ .bracket cls :: back ∧ cls.accepts '/' = true ∧
      Stands front before ∧ Stands back after := by
  induction group generalizing before with
  | nil => simp at h
  | cons token group ih =>
    obtain ⟨taken, rest, htaken, hrest, heq⟩ := h
    have hproper' : ∀ t ∈ group, t.IsProper := fun t ht => hproper t (List.mem_cons_of_mem _ ht)
    have hseparator' : ∀ t ∈ group, t.isSeparator = false :=
      fun t ht => hseparator t (List.mem_cons_of_mem _ ht)
    rcases List.append_eq_append_iff.1 heq with ⟨between, rfl, hafter⟩ | ⟨between, rfl, hafter⟩
    · cases between with
      | nil =>
        obtain ⟨front, cls, back, rfl, haccepts, hfront, hback⟩ :=
          ih hproper' hseparator' (show Stands group ([] ++ '/' :: after) from hafter ▸ hrest)
        exact ⟨token :: front, cls, back, rfl, haccepts,
          ⟨before, [], by simpa using htaken, hfront, by simp⟩, hback⟩
      | cons c between =>
        obtain ⟨rfl, rfl⟩ := List.cons.inj hafter
        obtain ⟨cls, rfl, haccepts, htaken'⟩ :=
          eq_bracket_of_takes (hproper token List.mem_cons_self)
          (hseparator token List.mem_cons_self) htaken (by simp)
        have hbefore : before = [] ∧ between = [] := by
          cases before with
          | nil => simpa using htaken'
          | cons d before => simp at htaken'
        obtain ⟨rfl, rfl⟩ := hbefore
        exact ⟨[], cls, group, rfl, haccepts, rfl, hrest⟩
    · rw [hafter] at hrest
      obtain ⟨front, cls, back, rfl, haccepts, hfront, hback⟩ := ih hproper' hseparator' hrest
      exact ⟨token :: front, cls, back, rfl, haccepts, ⟨taken, between, htaken, hfront, rfl⟩, hback⟩

/-- A group can stand for a text without a `/`, which is not empty unless the group is. -/
theorem exists_stands {group : List Token} (hproper : ∀ token ∈ group, token.IsProper)
    (hseparator : ∀ token ∈ group, token.isSeparator = false) :
    ∃ text, Stands group text ∧ '/' ∉ text ∧ (group ≠ [] → text ≠ []) := by
  induction group with
  | nil => exact ⟨[], rfl, by simp, by simp⟩
  | cons token group ih =>
    obtain ⟨text, htext, hslash, -⟩ := ih (fun t ht => hproper t (List.mem_cons_of_mem _ ht))
      fun t ht => hseparator t (List.mem_cons_of_mem _ ht)
    obtain ⟨taken, htaken, hne, hslash'⟩ := exists_takes (hproper token List.mem_cons_self)
      (hseparator token List.mem_cons_self)
    exact ⟨taken ++ text, ⟨taken, text, htaken, htext, rfl⟩, by simp [hslash, hslash'],
      fun _ => by simp [hne]⟩

/-- The token is a class that takes a `/` of the path. -/
def takesSlash : Token → Bool
  | .bracket cls => cls.accepts '/'
  | _ => false

/-- The tokens stand only for paths of this many names: they are as many groups, and no class inside
a group takes a `/`. A group without tokens stands for no name, so with one there is no path. -/
def KeepsDepth (tokens : List Token) (depth : Nat) : Prop :=
  [] ∈ groups tokens ∨ (groups tokens).length = depth ∧
    ∀ group ∈ groups tokens, ∀ token ∈ group.tail.dropLast, token.takesSlash = false

instance (tokens : List Token) (depth : Nat) : Decidable (KeepsDepth tokens depth) :=
  inferInstanceAs (Decidable (_ ∨ _))

theorem mem_tail_dropLast {group : List Token} {token : Token} : token ∈ group.tail.dropLast ↔
    ∃ front back, front ≠ [] ∧ back ≠ [] ∧ group = front ++ token :: back := by
  constructor
  · intro h
    cases group with
    | nil => simp at h
    | cons first group =>
      rw [List.tail_cons] at h
      rcases List.eq_nil_or_concat group with rfl | ⟨init, last, rfl⟩
      · simp at h
      · obtain ⟨before, after, rfl⟩ := List.append_of_mem (by simpa using h)
        exact ⟨first :: before, after ++ [last], by simp, by simp, by simp⟩
  · rintro ⟨front, back, hfront, hback, rfl⟩
    obtain ⟨first, before, rfl⟩ := List.exists_cons_of_ne_nil hfront
    rw [List.cons_append, List.tail_cons, List.dropLast_append_of_ne_nil (by simp),
      List.dropLast_cons_of_ne_nil hback]
    simp

theorem nil_not_mem_of_stands {groups : List (List Token)} {texts : List Text}
    (h : List.Forall₂ Stands groups texts)
    (hnames : ∀ name ∈ texts.flatMap (List.splitOn '/'), name ≠ []) : [] ∉ groups := by
  induction h with
  | nil => simp
  | @cons group text groups texts hstands _ ih =>
    simp only [List.flatMap_cons, List.mem_append] at hnames
    have hgroup : [] ≠ group := by
      rintro rfl
      obtain rfl := stands_nil.1 hstands
      exact hnames [] (Or.inl (by simp)) rfl
    simpa [hgroup] using ih fun name hname => hnames name (Or.inr hname)

/-- A group that keeps its classes from the `/` inside stands for a single name, if all names of its
text have characters. -/
theorem not_mem_slash_of_stands {group : List Token} {text : Text}
    (hproper : ∀ token ∈ group, token.IsProper ∧ token.isSeparator = false)
    (hinside : ∀ token ∈ group.tail.dropLast, token.takesSlash = false)
    (hstands : Stands group text)
    (hnames : ∀ name ∈ List.splitOn '/' text, name ≠ []) : '/' ∉ text := by
  intro hslash
  obtain ⟨before, after, rfl⟩ := List.append_of_mem hslash
  rw [List.splitOn_append_cons_self] at hnames
  obtain ⟨front, cls, back, rfl, haccepts, hfront, hback⟩ := exists_bracket_of_stands
    (fun t ht => (hproper t ht).1) (fun t ht => (hproper t ht).2) hstands
  have hfront' : front ≠ [] := by
    rintro rfl
    obtain rfl := stands_nil.1 hfront
    exact hnames [] (by simp) rfl
  have hback' : back ≠ [] := by
    rintro rfl
    obtain rfl := stands_nil.1 hback
    exact hnames [] (by simp) rfl
  have htoken := hinside (.bracket cls)
    (mem_tail_dropLast.2 ⟨front, back, hfront', hback', rfl⟩)
  simp [takesSlash, haccepts] at htoken

/-- The names of a path that groups of tokens stand for are as many as the groups. -/
theorem length_flatMap_splitOn {groups : List (List Token)} {texts : List Text}
    (hproper : ∀ group ∈ groups, ∀ token ∈ group, token.IsProper ∧ token.isSeparator = false)
    (hinside : ∀ group ∈ groups, ∀ token ∈ group.tail.dropLast, token.takesSlash = false)
    (h : List.Forall₂ Stands groups texts)
    (hnames : ∀ name ∈ texts.flatMap (List.splitOn '/'), name ≠ []) :
    (texts.flatMap (List.splitOn '/')).length = groups.length := by
  induction h with
  | nil => rfl
  | @cons group text groups texts hstands _ ih =>
    simp only [List.flatMap_cons, List.mem_append] at hnames
    have hlength := ih (fun g hg => hproper g (List.mem_cons_of_mem _ hg))
      (fun g hg => hinside g (List.mem_cons_of_mem _ hg)) fun name hname =>
      hnames name (Or.inr hname)
    have hslash := not_mem_slash_of_stands (hproper group List.mem_cons_self)
      (hinside group List.mem_cons_self) hstands fun name hname => hnames name (Or.inl hname)
    rw [List.flatMap_cons, List.length_append, List.splitOn_eq_singleton hslash, hlength]
    simp [Nat.add_comm]

/-- Groups that are not empty can stand for names. -/
theorem exists_names {groups : List (List Token)}
    (hproper : ∀ group ∈ groups, ∀ token ∈ group, token.IsProper ∧ token.isSeparator = false)
    (hne : [] ∉ groups) :
    ∃ names, List.Forall₂ Stands groups names ∧ ∀ name ∈ names, IsName name := by
  induction groups with
  | nil => exact ⟨[], .nil, by simp⟩
  | cons group groups ih =>
    simp only [List.mem_cons, not_or] at hne
    obtain ⟨names, hstands, hnames⟩ := ih (fun g hg => hproper g (List.mem_cons_of_mem _ hg)) hne.2
    obtain ⟨text, htext, hslash, hnonempty⟩ := exists_stands
      (fun t ht => (hproper group List.mem_cons_self t ht).1)
      fun t ht => (hproper group List.mem_cons_self t ht).2
    refine ⟨text :: names, .cons htext hstands, ?_⟩
    simpa using ⟨⟨hnonempty (Ne.symm hne.1), hslash⟩, hnames⟩

/-- Where a class inside a group takes a `/`, the groups can stand for one name more. -/
theorem exists_deeper {groups : List (List Token)} {front back : List Token} {token : Token}
    (hproper : ∀ group ∈ groups, ∀ token ∈ group, token.IsProper ∧ token.isSeparator = false)
    (hne : [] ∉ groups) (hgroup : front ++ token :: back ∈ groups) (hfront : front ≠ [])
    (hback : back ≠ []) (htakes : token.takesSlash = true) :
    ∃ names, (∀ name ∈ names, IsName name) ∧ names.length = groups.length + 1 ∧
      ∃ texts, List.Forall₂ Stands groups texts ∧
        List.intercalate ['/'] names = List.intercalate ['/'] texts := by
  have hinside := hproper _ hgroup
  obtain ⟨before, after, rfl⟩ := List.append_of_mem hgroup
  simp only [List.mem_append, List.mem_cons, not_or] at hne
  obtain ⟨names, hnames, hnames'⟩ :=
    exists_names (fun g hg => hproper g (List.mem_append_left _ hg)) hne.1
  obtain ⟨names₂, hnames₂, hnames₂'⟩ := exists_names
    (fun g hg => hproper g (List.mem_append_right _ (List.mem_cons_of_mem _ hg))) hne.2.2
  obtain ⟨first, hfirst, hslash, hfirst'⟩ := @exists_stands front
    (fun t ht => (hinside t (by simp [ht])).1) fun t ht => (hinside t (by simp [ht])).2
  obtain ⟨second, hsecond, hslash', hsecond'⟩ := @exists_stands back
    (fun t ht => (hinside t (by simp [ht])).1) fun t ht => (hinside t (by simp [ht])).2
  -- the class takes the `/` between two names, and all other groups stand for one name each
  have hmiddle : Stands (front ++ token :: back) (first ++ '/' :: second) := by
    cases token with
    | bracket cls =>
      exact stands_append.2 ⟨first, '/' :: second, hfirst,
        stands_bracket_cons.2 ⟨'/', second, htakes, hsecond, rfl⟩, rfl⟩
    | _ => simp [takesSlash] at htakes
  refine ⟨names ++ first :: second :: names₂, ?_, ?_, names ++ (first ++ '/' :: second) :: names₂,
    ?_, ?_⟩
  · simp only [List.mem_append, List.mem_cons]
    rintro name (h | rfl | rfl | h)
    · exact hnames' name h
    · exact ⟨hfirst' hfront, hslash⟩
    · exact ⟨hsecond' hback, hslash'⟩
    · exact hnames₂' name h
  · simp [hnames.length_eq, hnames₂.length_eq]
    omega
  · exact List.rel_append hnames (.cons hmiddle hnames₂)
  · have hslashed : slashed (names ++ first :: second :: names₂) =
        slashed (names ++ (first ++ '/' :: second) :: names₂) := by simp
    rw [slashed_eq_cons_intercalate (by simp), slashed_eq_cons_intercalate (by simp)] at hslashed
    exact (List.cons.inj hslashed).2

theorem splitOn_names {names : List Text} (hnames : ∀ name ∈ names, IsName name) :
    names.flatMap (List.splitOn '/') = names := by
  induction names with
  | nil => rfl
  | cons name names ih =>
    rw [List.flatMap_cons, ih fun n hn => hnames n (List.mem_cons_of_mem _ hn),
      List.splitOn_eq_singleton (hnames name List.mem_cons_self).2]
    rfl

/-- Proper tokens stand only for paths of a given number of names just when they keep the depth. -/
theorem keepsDepth_iff {tokens : List Token} (hproper : ∀ token ∈ tokens, token.IsProper)
    (depth : Nat) : KeepsDepth tokens depth ↔ ∀ names, names ≠ [] → (∀ name ∈ names, IsName name) →
      Stands tokens (List.intercalate ['/'] names) → names.length = depth := by
  have hgroups : ∀ group ∈ groups tokens, ∀ token ∈ group,
      token.IsProper ∧ token.isSeparator = false := by
    intro group hgroup token htoken
    obtain ⟨hmem, hseparator⟩ := of_mem_groups hgroup htoken
    exact ⟨hproper token hmem, hseparator⟩
  constructor
  · intro hdepth names hne hnames hstands
    obtain ⟨texts, htexts, hjoin⟩ := (stands_iff_groups hproper).1 hstands
    have htextsne : texts ≠ [] := by
      rintro rfl
      exact groups_ne_nil tokens (List.forall₂_nil_right_iff.1 htexts)
    have hsplit : texts.flatMap (List.splitOn '/') = names := by
      rw [← Text.splitOn_intercalate '/' htextsne, ← hjoin, Text.splitOn_intercalate '/' hne,
        splitOn_names hnames]
    have hnonempty : ∀ name ∈ texts.flatMap (List.splitOn '/'), name ≠ [] := by
      rw [hsplit]
      exact fun name hname => (hnames name hname).1
    rcases hdepth with hempty | ⟨hlength, hinside⟩
    · exact absurd hempty (nil_not_mem_of_stands htexts hnonempty)
    · rw [← hsplit, length_flatMap_splitOn hgroups hinside htexts hnonempty, hlength]
  · intro h
    by_cases hempty : [] ∈ groups tokens
    · exact Or.inl hempty
    -- one path has as many names as there are groups; a class that takes a `/` makes a longer one
    obtain ⟨names, hstands, hnames⟩ := exists_names hgroups hempty
    have hne : names ≠ [] := by
      rintro rfl
      exact groups_ne_nil tokens (List.forall₂_nil_right_iff.1 hstands)
    have hlength := h names hne hnames ((stands_iff_groups hproper).2 ⟨names, hstands, rfl⟩)
    rw [← hstands.length_eq] at hlength
    refine Or.inr ⟨hlength, fun group hgroup token htoken => ?_⟩
    obtain ⟨front, back, hfront, hback, rfl⟩ := mem_tail_dropLast.1 htoken
    by_contra htakes
    obtain ⟨deeper, hdeeper, hlength', hstands'⟩ :=
      exists_deeper hgroups hempty hgroup hfront hback (by simpa using htakes)
    have hdepth := h deeper (by rintro rfl; simp at hlength') hdeeper
      ((stands_iff_groups hproper).2 hstands')
    omega

end Token

/-! ### Tokens of patterns without `**` -/

namespace CharClass

theorem mem_membersOf {items : List ClassItem} {member : ClassMember}
    (h : member ∈ membersOf items) :
    ∃ low ∈ items, (∀ c, member.covers c = true → low.char ≤ c) := by
  fun_induction membersOf items with
  | case1 => simp at h
  | case2 low dash high rest _ ih =>
    rcases List.mem_cons.1 h with rfl | h
    · exact ⟨low, by simp, fun c hc => by simpa using (Bool.and_eq_true_iff.1 hc).1⟩
    · obtain ⟨item, hitem, hcovers⟩ := ih h
      exact ⟨item, by simp [hitem], hcovers⟩
  | case3 low dash high rest _ ih =>
    rcases List.mem_cons.1 h with rfl | h
    · exact ⟨low, by simp, fun c hc => (beq_iff_eq.1 hc) ▸ Char.le_refl _⟩
    · obtain ⟨item, hitem, hcovers⟩ := ih h
      exact ⟨item, List.mem_cons_of_mem _ hitem, hcovers⟩
  | case4 item rest _ ih =>
    rcases List.mem_cons.1 h with rfl | h
    · exact ⟨item, by simp, fun c hc => (beq_iff_eq.1 hc) ▸ Char.le_refl _⟩
    · obtain ⟨item', hitem, hcovers⟩ := ih h
      exact ⟨item', List.mem_cons_of_mem _ hitem, hcovers⟩

theorem membersOf_ne_nil {items : List ClassItem} (h : items ≠ []) : membersOf items ≠ [] := by
  fun_cases membersOf items <;> simp_all

theorem mem_of_mem_items {text after : Text} {cls : CharClass} {item : ClassItem}
    (h : read? text = some (cls, after)) (hitem : item ∈ cls.items)
    (hspecial : item.char ∉ ['\\', '!', '^']) : item.char ∈ text := by
  obtain ⟨-, inner, rfl, -, hcount⟩ := read?_local h
  simp only [List.mem_cons, List.not_mem_nil, or_false, not_or] at hspecial
  have hmem : item.char ∈ inner := by
    rw [← List.count_pos_iff, hcount _ hspecial.1 hspecial.2.1 hspecial.2.2, List.count_pos_iff]
    exact List.mem_map_of_mem hitem
  simp [hmem]

end CharClass

namespace Token

/-- The tokens of a text without a component `**` and without null characters are proper. -/
theorem isProper_of_read? {text : Text} {tokens : List Token} (h : read? text = some tokens)
    (hstars : doubleStar ∉ List.splitOn '/' text) (hnull : '\x00' ∉ text)
    (hascending : Ascending tokens) : ∀ token ∈ tokens, token.IsProper := by
  have hcomponent : ∀ before after, endsComponent after = true →
      text ≠ before ++ '/' :: (doubleStar ++ after) := by
    rintro before after hends rfl
    refine hstars ?_
    rw [List.splitOn_append_cons_self]
    rcases endsComponent_iff.1 hends with rfl | hhead
    · exact List.mem_append_right _ List.mem_cons_self
    · obtain ⟨rest, rfl⟩ := List.head?_eq_some_iff.1 hhead
      rw [List.splitOn_append_cons_self]
      exact List.mem_append_right _ List.mem_cons_self
  intro token hmem
  obtain ⟨before, rest, rfl, hread⟩ := exists_isReadFrom h hmem
  cases token with
  | char | star => trivial
  | row count => exact hread.1
  | span =>
    obtain ⟨rest, rfl⟩ := hread
    exact hcomponent before ('/' :: rest) rfl rfl
  | below =>
    obtain rfl : rest = ['/', '*', '*'] := hread
    exact hcomponent before [] rfl rfl
  | bracket cls =>
    obtain ⟨rest, after, rfl, hclass⟩ := hread
    refine ⟨CharClass.membersOf_ne_nil (CharClass.read?_local hclass).1, hascending cls hmem, ?_⟩
    rw [List.any_eq_false]
    intro member hmember hcovers
    obtain ⟨item, hitem, hle⟩ := CharClass.mem_membersOf hmember
    have hleast : '\x00' ≤ item.char := by simp [Char.le_def]
    have hitem' : item.char = '\x00' := Char.le_antisymm (hle _ hcovers) hleast
    have hmem := CharClass.mem_of_mem_items hclass hitem (by rw [hitem']; decide)
    rw [hitem'] at hmem
    exact hnull (by simp [hmem])

end Token

/-! ### Depth of patterns -/

theorem splitOn_eq_components {text : Text} {units : List Piece} (h : pieces text = some units)
    (hescaped : .pair '/' ∉ units) : List.splitOn '/' text = (components units).map textOf := by
  fun_induction pieces text generalizing units with
  | case1 =>
    cases h
    rfl
  | case2 => simp at h
  | case3 c rest ih =>
    obtain ⟨more, hmore, rfl⟩ := Option.map_eq_some_iff.1 h
    simp only [List.mem_cons, Piece.pair.injEq, not_or] at hescaped
    obtain ⟨first, groups, hgroups, hcons⟩ :=
      @components_cons (.pair c) (by simp) more
    have hrest := ih hmore hescaped.2
    rw [hgroups] at hrest
    rw [splitOn_cons_of_ne (by decide), splitOn_cons_of_ne (Ne.symm hescaped.1), hrest, hcons]
    rfl
  | case4 c rest _ _ ih =>
    obtain ⟨more, hmore, rfl⟩ := Option.map_eq_some_iff.1 h
    simp only [List.mem_cons, not_or] at hescaped
    have hrest := ih hmore hescaped.2
    by_cases hc : c = '/'
    · rw [hc, components_slash, splitOn_cons_self, hrest]
      rfl
    · obtain ⟨first, groups, hgroups, hcons⟩ :=
        @components_cons (.plain c) (by simpa using hc) more
      rw [hgroups] at hrest
      rw [splitOn_cons_of_ne hc, hrest, hcons]
      rfl

theorem eq_globstar_of_textOf {component : List Piece} (h : textOf component = doubleStar) :
    component = globstar := by
  match component with
  | [] => simp [textOf, doubleStar] at h
  | [piece] => cases piece <;> simp [textOf, doubleStar] at h
  | [first, second] => cases first <;> cases second <;> simp_all [textOf, doubleStar, globstar]
  | first :: second :: third :: rest =>
    cases first <;> cases second <;> cases third <;> simp [textOf, doubleStar] at h

/-- The tokens of a pattern. -/
def tokensOf (pattern : Text) : List Token := (Token.read? (core pattern)).getD []

theorem collapseGlobstars_slashed {components : List Text}
    (hslash : ∀ component ∈ components, '/' ∉ component) (hstars : doubleStar ∉ components) :
    collapseGlobstars (slashed components) = slashed components := by
  induction components with
  | nil => rfl
  | cons component more ih =>
    simp only [List.mem_cons, not_or] at hstars
    rw [slashed_cons, collapseGlobstars_component (hslash component List.mem_cons_self)
      (endsComponent_slashed more) (Ne.symm hstars.1),
      ih (fun c hc => hslash c (List.mem_cons_of_mem _ hc)) hstars.2]

/-- A pattern that begins with `/` and has no component `**` is its own core. -/
theorem core_of_rooted {rest : Text} (hne : rest ≠ [])
    (hstars : doubleStar ∉ List.splitOn '/' rest) :
    core ('/' :: rest) = rest ∧ (splitAnchor ('/' :: rest)).1 = false ∧
      ¬ MatchesAll ('/' :: rest) := by
  obtain ⟨front, component, more, hparts⟩ := exists_parts ('/' :: rest)
  have hnames : List.splitOn '/' rest = front ++ component :: more := hparts.namesOf_eq
  have hfront : front = [] := by
    cases front with
    | nil => rfl
    | cons first front =>
      refine absurd ?_ hstars
      rw [hnames, hparts.front_eq first List.mem_cons_self]
      exact List.mem_cons_self
  subst hfront
  rw [hnames, List.nil_append, List.mem_cons, not_or] at hstars
  have hslash : ∀ c ∈ more, '/' ∉ c :=
    fun c hc => hparts.not_mem_slash c (List.mem_cons_of_mem _ hc)
  have hcore : core ('/' :: rest) = rest := by
    rw [hparts.core_eq, collapseGlobstars_slashed hslash hstars.2, ← intercalate_cons]
    have hjoin := @List.intercalate_splitOn _ rest _ _ '/'
    rwa [hnames] at hjoin
  have hanchored : IsAnchored ('/' :: rest) := by
    refine ⟨rfl, ?_⟩
    rw [hparts.namesOf_eq]
    simpa using Ne.symm hstars.1
  refine ⟨hcore, (hparts.isAnchored_iff (Ne.symm hstars.1)).1 hanchored, ?_⟩
  rintro (hmem | ⟨-, hnil | hcore'⟩)
  · have heq : rest = doubleStar := by
      simpa [matchAll, doubleStar] using hmem
    rw [heq] at hnames
    obtain ⟨rfl, -⟩ := List.cons.inj hnames
    exact hstars.1 rfl
  · exact hne (hcore.symm.trans hnil)
  · exact hstars.1 (hparts.eq_of_core_eq hcore').1.symm

/-- What is left of a pattern that begins with `/` when its mark is taken off. -/
theorem splitMark_of_rooted {pattern : Text} {units : List Piece}
    (hgrammar : isGrammatical pattern = true) (hroot : pattern.head? = some '/')
    (hunits : pieces pattern = some units) (hglobstar : globstar ∉ body units)
    (hescaped : .pair '/' ∉ units) :
    (Rule.splitMark pattern).1 = [] ∨ ∃ rest, rest ≠ [] ∧
      (Rule.splitMark pattern).1 = '/' :: rest ∧ doubleStar ∉ List.splitOn '/' rest := by
  have hstars : doubleStar ∉ List.splitOn '/' pattern := by
    rw [splitOn_eq_components hunits hescaped]
    intro hmem
    obtain ⟨component, hcomponent, htext⟩ := List.mem_map.1 hmem
    obtain rfl := eq_globstar_of_textOf htext
    rcases mem_body hcomponent with hnil | hbody
    · cases hnil
    · exact hglobstar hbody
  have hmark := Rule.append_splitMark pattern
  cases hstem : (Rule.splitMark pattern).1 with
  | nil => exact Or.inl rfl
  | cons c rest =>
    rw [hstem] at hmark
    have hhead : c = '/' := by
      rw [hmark] at hroot
      simpa using hroot
    subst hhead
    refine Or.inr ⟨rest, ?_, rfl, ?_⟩
    · rintro rfl
      cases hmarked : (Rule.splitMark pattern).2 with
      | true =>
        rw [hmarked] at hmark
        rw [hmark] at hgrammar
        exact absurd hgrammar (by decide)
      | false =>
        rw [hmarked] at hmark
        rw [hmark] at hstem
        exact absurd hstem (by decide)
    · intro hmem
      refine hstars ?_
      rw [hmark, List.cons_append, splitOn_cons_self]
      refine List.mem_cons_of_mem _ ?_
      cases (Rule.splitMark pattern).2 with
      | true =>
        rw [if_pos rfl, List.splitOn_append_cons_self]
        exact List.mem_append_left _ hmem
      | false => simpa using hmem

/-- The bare `/` selects nothing below the root. -/
theorem not_accepts_of_compile_nil {directoryOnly : Bool} {m : Matcher} {names : List Text}
    (h : compile [] directoryOnly = .ok m) (hne : names ≠ [])
    (hnames : ∀ name ∈ names, IsName name) :
    ¬ m.accepts (relativePath names directoryOnly) = true := by
  obtain ⟨-, ⟨-, hall⟩ | ⟨hsome, -, hdirectory⟩ | ⟨_, -, hnonempty, -⟩⟩ := compile_ok h
  · rcases hall with hmem | ⟨hnonempty, -⟩
    · exact absurd hmem (by decide)
    · exact absurd rfl hnonempty
  · intro haccepts
    unfold Matcher.accepts at haccepts
    rw [hsome, Bool.and_eq_true] at haccepts
    have hstands := Token.stands_singleton.1 (Expression.accepts_iff.1 haccepts.2)
    have hpath : List.intercalate ['/'] names ++ ['/'] = ['/'] := by
      simpa [relativePath, hdirectory, Token.Takes] using hstands
    obtain ⟨name, more, rfl⟩ := List.exists_cons_of_ne_nil hne
    rw [intercalate_cons] at hpath
    have hfirst : name ++ slashed more = [] :=
      List.append_cancel_right (hpath.trans (List.nil_append _).symm)
    exact (hnames name List.mem_cons_self).1 (List.append_eq_nil_iff.1 hfirst).1
  · exact absurd rfl hnonempty

/-- The matcher of a pattern that begins with `/` and has no `**` accepts only paths with as many
names as the pattern has components just when its classes keep the depth. -/
theorem accepted_depth_iff {pattern : Text} {units : List Piece} {directoryOnly : Bool}
    {m : Matcher}
    (hcheck : checkText pattern = .ok pattern) (hblank : ∀ c ∈ pattern, Text.isBlank c = false)
    (hroot : pattern.head? = some '/') (hunits : pieces pattern = some units)
    (hglobstar : globstar ∉ body units) (hescaped : .pair '/' ∉ units)
    (hcompile : compile (Rule.splitMark pattern).1 directoryOnly = .ok m) :
    (∀ names, names ≠ [] → (∀ name ∈ names, IsName name) →
        m.accepts (relativePath names directoryOnly) = true → names.length = (body units).length) ↔
      Token.KeepsDepth (tokensOf (Rule.splitMark pattern).1) (body units).length := by
  obtain ⟨-, hnull, hgrammar⟩ := (checkText_ok_iff hblank).1 hcheck
  rcases splitMark_of_rooted hgrammar hroot hunits hglobstar hescaped with
    hnil | ⟨rest, hne, heq, hstars⟩
  · have htokens : tokensOf [] = [] := by
      have hcore : core [] = [] := rfl
      rw [tokensOf, hcore, Token.read?]
      rfl
    rw [hnil, htokens]
    rw [hnil] at hcompile
    refine iff_of_true (fun names hne hnames haccepts => ?_) (Or.inl List.mem_cons_self)
    exact absurd haccepts (not_accepts_of_compile_nil hcompile hne hnames)
  · rw [heq] at hcompile ⊢
    obtain ⟨hcore, hanchor, hall⟩ := core_of_rooted hne hstars
    obtain ⟨-, ⟨-, hall'⟩ | ⟨-, hnil, -⟩ | ⟨tokens, hread, -, -, -, hbad⟩⟩ := compile_ok hcompile
    · exact absurd hall' hall
    · cases hnil
    · have htokens : tokensOf ('/' :: rest) = tokens := by
        rw [tokensOf, hread]
        rfl
      have hnull' : '\x00' ∉ rest := by
        intro hmem
        refine hnull ?_
        rw [Rule.append_splitMark pattern, heq]
        exact List.mem_append_left _ (List.mem_cons_of_mem _ hmem)
      have hproper := Token.isProper_of_read? (hcore ▸ hread) hstars hnull'
        (ascending_ending.1 (badToken?_eq_none.1 hbad))
      have haccepts : ∀ names, names ≠ [] → (∀ name ∈ names, IsName name) →
          (m.accepts (relativePath names directoryOnly) = true ↔
            Token.Stands tokens (List.intercalate ['/'] names)) := by
        intro names hnonempty hnames
        rw [relativePath, accepts_iff_selects hcompile (List.cons_ne_nil _ _)
          (getLast?_intercalate hnonempty hnames)]
        simp [Selects, hall, hread, hanchor]
      rw [htokens, Token.keepsDepth_iff hproper]
      constructor
      · exact fun h names hnonempty hnames hstands =>
          h names hnonempty hnames ((haccepts names hnonempty hnames).2 hstands)
      · exact fun h names hnonempty hnames hm =>
          h names hnonempty hnames ((haccepts names hnonempty hnames).1 hm)

/-- A class that only keeps the `/` out of the middle of a component keeps the depth, and so does
one that accepts a `/` at the beginning. -/
theorem accepted_depth_iff_kept : ∃ units m, pieces "/a[bc]*/[!x]d/" = some units ∧
    compile (Rule.splitMark "/a[bc]*/[!x]d/").1 true = .ok m ∧
    ∀ names, names ≠ [] → (∀ name ∈ names, IsName name) →
      m.accepts (relativePath names true) = true → names.length = (body units).length := by
  have hcompile : compile (Rule.splitMark "/a[bc]*/[!x]d/").1 true = .ok ⟨"/a[bc]*/[!x]d", true,
      some ⟨false, [.char 'a', .bracket ⟨false, [⟨'b', false⟩, ⟨'c', false⟩]⟩, .star, .char '/',
        .bracket ⟨true, [⟨'x', false⟩]⟩, .char 'd', .char '/']⟩⟩ := by
    decide +kernel
  have hblank : ∀ c ∈ "/a[bc]*/[!x]d/".toList, Text.isBlank c = false := by
    have hall : "/a[bc]*/[!x]d/".toList.all (!Text.isBlank ·) = true := by decide
    simpa using List.all_eq_true.1 hall
  have htokens : tokensOf (Rule.splitMark "/a[bc]*/[!x]d/").1 =
      [.char 'a', .bracket ⟨false, [⟨'b', false⟩, ⟨'c', false⟩]⟩, .star, .char '/',
        .bracket ⟨true, [⟨'x', false⟩]⟩, .char 'd'] := by
    decide +kernel
  have hunits : ∃ units, pieces "/a[bc]*/[!x]d/" = some units ∧ .pair '/' ∉ units ∧
      globstar ∉ body units ∧ (body units).length = 2 := ⟨_, rfl, by decide, by decide, by decide⟩
  obtain ⟨units, hunits, hescaped, hglobstar, hlength⟩ := hunits
  refine ⟨units, _, hunits, hcompile,
    (accepted_depth_iff rfl hblank rfl hunits hglobstar hescaped hcompile).2 ?_⟩
  rw [htokens, hlength]
  decide

/-- A negated class inside a component takes the `/` between two names. So a pattern of one
component selects an entry in a directory. -/
theorem accepts_deeper : ∃ units m, checkText "/a[!b]c" = .ok "/a[!b]c".toList ∧
    (∀ c ∈ "/a[!b]c".toList, Text.isBlank c = false) ∧ pieces "/a[!b]c" = some units ∧
    globstar ∉ body units ∧ .pair '/' ∉ units ∧
    compile (Rule.splitMark "/a[!b]c").1 false = .ok m ∧
    ¬ ∀ names, names ≠ [] → (∀ name ∈ names, IsName name) →
      m.accepts (relativePath names false) = true → names.length = (body units).length := by
  have hcompile : compile (Rule.splitMark "/a[!b]c").1 false = .ok ⟨"/a[!b]c", false,
      some ⟨false, [.char 'a', .bracket ⟨true, [⟨'b', false⟩]⟩, .char 'c']⟩⟩ := by
    decide +kernel
  have hblank : ∀ c ∈ "/a[!b]c".toList, Text.isBlank c = false := by
    have hall : "/a[!b]c".toList.all (!Text.isBlank ·) = true := by decide
    simpa using List.all_eq_true.1 hall
  have hunits : ∃ units, pieces "/a[!b]c" = some units ∧ .pair '/' ∉ units ∧
      globstar ∉ body units ∧ (body units).length = 1 := ⟨_, rfl, by decide, by decide, by decide⟩
  obtain ⟨units, hunits, hescaped, hglobstar, hlength⟩ := hunits
  refine ⟨units, _, rfl, hblank, hunits, hglobstar, hescaped, hcompile, fun h => ?_⟩
  have hdeeper := h ["a".toList, "c".toList] (by decide) (by decide) (by decide)
  rw [hlength] at hdeeper
  cases hdeeper

end Pattern

end PathRights
