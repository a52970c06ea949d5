import PathRights.CommandLine.Check
import PathRights.Proofs.Config.Precedence
import PathRights.Proofs.Role.Form

/-! Options that declare roles. An option is cut at its first `=`, and what stands before it has to
be more than blanks. A name that is given again keeps its place among the names and takes the last
specification. -/

namespace PathRights

namespace Text

theorem trim_eq_nil_iff {text : Text} : text.trim = [] ↔ ∀ c ∈ text, isBlank c = true := by
  constructor
  · intro h
    obtain ⟨left, right, hleft, hright, htext⟩ := isWithin_trim text
    rw [htext, h, List.append_nil]
    exact List.forall_mem_append.2 ⟨hleft, hright⟩
  · intro h
    exact IsWithin.trim_eq ⟨text, [], h, List.forall_mem_nil _, by simp⟩ (List.forall_mem_nil _)

end Text

namespace Mapping

/-! ### Entries that are set one after the other -/

/-- The mapping with entries set one after the other. -/
def setAll (m : Mapping) (entries : List (Scalar × Value)) : Mapping :=
  entries.foldl (fun m entry => m.set entry.1 entry.2) m

theorem keys_setAll (m : Mapping) (entries : List (Scalar × Value)) :
    (m.setAll entries).map (·.1) = m.map (·.1) ++
      (Config.firstKeys (entries.map (·.1))).filter (Config.isNew (m.map (·.1))) := by
  induction entries generalizing m with
  | nil => exact (List.append_nil _).symm
  | cons entry rest ih =>
    obtain ⟨key, value⟩ := entry
    show ((m.set key value).setAll rest).map (·.1) = _
    rw [ih, keys_set, List.map_cons, Config.firstKeys, List.filter_cons, List.filter_filter]
    cases known : m.get? key with
    | some _ =>
      have old : ¬ Config.isNew (m.map (·.1)) key = true := by simp [Config.isNew_keys, known]
      rw [if_neg old, if_pos Option.isSome_some]
      refine congrArg _ (List.filter_congr fun other _ => ?_)
      -- what is new to the mapping is not the key, which is there
      cases hnew : Config.isNew (m.map (·.1)) other with
      | false => rfl
      | true =>
        have different : key.sameKey other = false := by
          refine Bool.eq_false_iff.2 fun same => ?_
          rw [Config.isNew_keys, ← get?_congr m same, known] at hnew
          cases hnew
        rw [Bool.true_and]
        simp [Config.isNew, different]
    | none =>
      rw [if_pos (Config.isNew_keys.2 known), if_neg (by simp), List.append_assoc]
      refine congrArg (m.map (·.1) ++ key :: ·) (List.filter_congr fun other _ => ?_)
      simp [Config.isNew, Bool.and_comm]

/-- Entries at other keys leave the value of a key. -/
theorem get?_setAll_of_ne {key : Scalar} (m : Mapping) {entries : List (Scalar × Value)}
    (h : ∀ entry ∈ entries, entry.1.sameKey key = false) :
    (m.setAll entries).get? key = m.get? key := by
  induction entries generalizing m with
  | nil => rfl
  | cons entry rest ih =>
    obtain ⟨hentry, hrest⟩ := List.forall_mem_cons.1 h
    show ((m.set entry.1 entry.2).setAll rest).get? key = _
    rw [ih _ hrest, get?_set, hentry]
    rfl

/-- What holds of the values of a mapping and of the entries holds of all values afterwards. -/
theorem get?_setAll_induction {p : Value → Prop} {m : Mapping} {entries : List (Scalar × Value)}
    (hm : ∀ key value, m.get? key = some value → p value) (h : ∀ entry ∈ entries, p entry.2) :
    ∀ key value, (m.setAll entries).get? key = some value → p value := by
  induction entries generalizing m with
  | nil => exact hm
  | cons entry rest ih =>
    obtain ⟨hentry, hrest⟩ := List.forall_mem_cons.1 h
    refine ih (fun key value hvalue => ?_) hrest
    rw [get?_set] at hvalue
    split at hvalue
    · cases hvalue
      exact hentry
    · exact hm key value hvalue

end Mapping

namespace CommandLine

/-! ### The parts of an option -/

/-- The name that an option gives: what stands before its first `=`, without the blanks around
it. -/
def optionName (option : Text) : Text := Text.trim (option.takeWhile (· != '='))

/-- The specification that an option gives: what stands behind its first `=`, without blanks. -/
def optionSpec (option : Text) : Text := Text.trim (option.dropWhile (· != '=')).tail

/-- The option has no `=`, or nothing but blanks before the first. -/
def IsNameless (option : Text) : Prop :=
  '=' ∉ option ∨ ∀ c ∈ option.takeWhile (· != '='), Text.isBlank c = true

/-- What is set for an option. -/
def roleEntry (option : Text) : Scalar × Value :=
  (.str (optionName option), .str (optionSpec option))

theorem parseRole_cases (option : Text) :
    IsNameless option ∧ parseRole option = .error (.roleWithoutName option) ∨
      ¬ IsNameless option ∧ parseRole option = .ok (optionName option, optionSpec option) := by
  unfold parseRole
  cases hbreak : option.breakAt (· == '=') with
  | none =>
    have hnone := Text.breakAt_eq_none.1 hbreak
    exact Or.inl ⟨Or.inl fun hmem => absurd (hnone '=' hmem) (by decide), rfl⟩
  | some parts =>
    obtain ⟨name, sep, spec⟩ := parts
    obtain ⟨rfl, hsep, hname⟩ := Text.eq_of_breakAt hbreak
    obtain rfl : sep = '=' := eq_of_beq hsep
    have hfront : (name ++ '=' :: spec).takeWhile (· != '=') = name := by
      rw [List.takeWhile_append_of_pos fun c hc => by simpa using hname c hc]
      simp
    have hback : (name ++ '=' :: spec).dropWhile (· != '=') = '=' :: spec := by
      rw [List.dropWhile_append_of_pos fun c hc => by simpa using hname c hc]
      simp
    have hiff : IsNameless (name ++ '=' :: spec) ↔ name.trim = [] := by
      unfold IsNameless
      rw [hfront, Text.trim_eq_nil_iff]
      exact or_iff_right fun hnot => hnot (by simp)
    unfold optionName optionSpec
    rw [hfront, hback, List.tail_cons, hiff]
    by_cases hblank : name.trim = []
    · exact Or.inl ⟨hblank, by simp [hblank]⟩
    · exact Or.inr ⟨hblank, by simp [hblank]⟩

/-- Options are taken in order, up to the first without a name. -/
theorem addRoles_cases (roles : Mapping) (options : List Text) :
    (∃ before option after, options = before ++ option :: after ∧ IsNameless option ∧
        (∀ earlier ∈ before, ¬ IsNameless earlier) ∧
        addRoles roles options = .error (.roleWithoutName option)) ∨
      (∀ option ∈ options, ¬ IsNameless option) ∧
        addRoles roles options = .ok (roles.setAll (options.map roleEntry)) := by
  induction options generalizing roles with
  | nil => exact Or.inr ⟨List.forall_mem_nil _, rfl⟩
  | cons option rest ih =>
    unfold addRoles
    rcases parseRole_cases option with ⟨hnameless, herror⟩ | ⟨hnamed, hok⟩
    · refine Or.inl ⟨[], option, rest, rfl, hnameless, List.forall_mem_nil _, ?_⟩
      rw [herror]
    · rw [hok]
      dsimp only
      rcases ih (roles.set (.str (optionName option)) (.str (optionSpec option))) with
        ⟨before, first, after, rfl, hnameless, hbefore, herror⟩ | ⟨hnone, hok⟩
      · exact Or.inl ⟨option :: before, first, after, rfl, hnameless,
          List.forall_mem_cons.2 ⟨hnamed, hbefore⟩, herror⟩
      · exact Or.inr ⟨List.forall_mem_cons.2 ⟨hnamed, hnone⟩, hok⟩

/-! ### The roles of options -/

/-- The mapping has the names of the options in the order in which they are given first, each with
the specification that it is given last. -/
structure DeclaresRoles (options : List Text) (roles : Mapping) : Prop where
  names : roles.map (·.1) = Config.firstKeys (options.map fun option => .str (optionName option))
  last : ∀ before option after, options = before ++ option :: after →
    (∀ later ∈ after, optionName later ≠ optionName option) →
      roles.getText? (optionName option) = some (.str (optionSpec option))

theorem declaresRoles_setAll (options : List Text) :
    DeclaresRoles options (Mapping.setAll [] (options.map roleEntry)) := by
  refine ⟨?_, ?_⟩
  · rw [Mapping.keys_setAll, List.map_map]
    exact List.filter_eq_self.2 fun _ _ => rfl
  · rintro before option after rfl hlater
    unfold Mapping.getText? Mapping.setAll
    rw [List.map_append, List.foldl_append, List.map_cons, List.foldl_cons]
    refine (Mapping.get?_setAll_of_ne _ ?_).trans ?_
    · intro entry hentry
      obtain ⟨later, hmem, rfl⟩ := List.mem_map.1 hentry
      simpa [roleEntry] using hlater later hmem
    · simp [Mapping.get?_set, roleEntry]

theorem DeclaresRoles.distinct {options : List Text} {roles : Mapping}
    (h : DeclaresRoles options roles) : roles.Distinct := by
  unfold Mapping.Distinct
  rw [h.names]
  exact Config.pairwise_firstKeys _

theorem parseRoles_eq_ok {options : List Text} {roles : Mapping}
    (h : parseRoles options = .ok roles) :
    (∀ option ∈ options, ¬ IsNameless option) ∧
      roles = Mapping.setAll [] (options.map roleEntry) := by
  rcases addRoles_cases [] options with ⟨_, _, _, -, -, -, herror⟩ | ⟨hnone, hok⟩
  · cases herror.symm.trans h
  · exact ⟨hnone, Except.ok.inj (h.symm.trans hok)⟩

theorem parseRoles_fails_iff {options : List Text} :
    (∃ error, parseRoles options = .error error) ↔ ∃ option ∈ options, IsNameless option := by
  rcases addRoles_cases [] options with
    ⟨before, option, after, rfl, hnameless, -, herror⟩ | ⟨hnone, hok⟩
  · exact iff_of_true ⟨_, herror⟩ ⟨option, by simp, hnameless⟩
  · refine iff_of_false ?_ fun ⟨option, hmem, hnameless⟩ => hnone option hmem hnameless
    rintro ⟨error, herror⟩
    cases herror.symm.trans hok

end CommandLine

end PathRights
