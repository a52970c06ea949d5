import Mathlib.Data.List.Forall2
import PathRights.Proofs.Role.Registry

/-! Declarations of roles, one after the other. A declaration is rejected if its role cannot be read
or, failing that, if its name was declared before; the first that is rejected ends the reading with
its error. If none is, each name that was declared has the role of its declaration, and no other
name has a role. -/

namespace PathRights

namespace Role

/-- Why a role is refused: the first thing that is wrong with its declaration. -/
inductive Refuses (accounts : Accounts) (name spec : Value) : RoleError → Prop
  | badName {error : NameError} (h : checkName name = .error error) :
      Refuses accounts name spec (.badName error)
  | badSpec {text : Text} {error : SpecError} (hname : checkName name = .ok text)
      (h : Spec.ofValue spec = .error error) : Refuses accounts name spec (.badSpec text error)
  | unknownUser {text : Text} {parts : Spec} (hname : checkName name = .ok text)
      (hspec : Spec.ofValue spec = .ok parts) (h : accounts.user parts.user = .unknown) :
      Refuses accounts name spec (.unknownUser text parts.user)
  | refusedUser {text : Text} {parts : Spec} (hname : checkName name = .ok text)
      (hspec : Spec.ofValue spec = .ok parts) (h : accounts.user parts.user = .refused) :
      Refuses accounts name spec (.refusedLookup parts.user)
  | unknownGroup {text : Text} {parts : Spec} {userId : Int} (hname : checkName name = .ok text)
      (hspec : Spec.ofValue spec = .ok parts) (huser : accounts.user parts.user = .found userId)
      (h : accounts.group (parts.group.getD parts.user) = .unknown) :
      Refuses accounts name spec (.unknownGroup text (parts.group.getD parts.user))
  | refusedGroup {text : Text} {parts : Spec} {userId : Int} (hname : checkName name = .ok text)
      (hspec : Spec.ofValue spec = .ok parts) (huser : accounts.user parts.user = .found userId)
      (h : accounts.group (parts.group.getD parts.user) = .refused) :
      Refuses accounts name spec (.refusedLookup (parts.group.getD parts.user))

theorem parse_eq_error_iff {accounts : Accounts} {name spec : Value} {error : RoleError} :
    parse accounts name spec = .error error ↔ Refuses accounts name spec error := by
  constructor
  · intro h
    unfold parse at h
    split at h
    · next hname =>
      cases h
      exact .badName hname
    · next hname =>
      split at h
      · next hspec =>
        cases h
        exact .badSpec hname hspec
      · next hspec =>
        dsimp only at h
        split at h
        · next huser =>
          cases h
          exact .refusedUser hname hspec huser
        · next huser =>
          cases h
          exact .unknownUser hname hspec huser
        · next huser =>
          split at h
          · next hgroup =>
            cases h
            exact .refusedGroup hname hspec huser hgroup
          · next hgroup =>
            cases h
            exact .unknownGroup hname hspec huser hgroup
          · cases h
  · intro h
    unfold parse
    cases h with
    | badName h => rw [h]
    | badSpec hname h => rw [hname, h]
    | unknownUser hname hspec h | refusedUser hname hspec h =>
      rw [hname, hspec]
      dsimp only
      rw [h]
    | unknownGroup hname hspec huser h | refusedGroup hname hspec huser h =>
      rw [hname, hspec]
      dsimp only
      rw [huser]
      dsimp only
      rw [h]

theorem eq_of_checkName {value : Value} {name : Text} (h : checkName value = .ok name) :
    value = .str name := by
  unfold checkName Value.str? checkNameText at h
  split at h
  · cases h
  · split at h
    · next text htext =>
      split at htext
      · cases htext
        split at h
        · cases h
        · split at h
          · cases h
            rfl
          · cases h
      · cases htext
    · cases h

/-- A role has the name that it was declared with. -/
theorem name_of_parse {accounts : Accounts} {name spec : Value} {role : Role}
    (h : parse accounts name spec = .ok role) : name = .str role.name := by
  obtain ⟨_, _, _, _, hname, -, -, -, rfl⟩ := ofSpec_of_parse h
  exact eq_of_checkName hname

end Role

namespace Registry

variable {accounts : Accounts} {declarations earlier : List (Value × Value)} {registry : Registry}

/-! ### Rejected declarations -/

/-- The declaration cannot follow the earlier ones. -/
inductive Rejects (accounts : Accounts) (earlier : List (Value × Value)) :
    Value × Value → RoleError → Prop
  | unread {declaration : Value × Value} {error : RoleError}
      (h : Role.parse accounts declaration.1 declaration.2 = .error error) :
      Rejects accounts earlier declaration error
  | repeated {declaration : Value × Value} {role : Role}
      (h : Role.parse accounts declaration.1 declaration.2 = .ok role)
      (hname : declaration.1 ∈ earlier.map Prod.fst) :
      Rejects accounts earlier declaration (.duplicate role.name)

theorem Rejects.unique {declaration : Value × Value} {error error' : RoleError}
    (h : Rejects accounts earlier declaration error)
    (h' : Rejects accounts earlier declaration error') : error = error' := by
  cases h with
  | unread h =>
    cases h' with
    | unread h' => exact Except.error.inj (h.symm.trans h')
    | repeated h' => cases h.symm.trans h'
  | repeated h =>
    cases h' with
    | unread h' => cases h.symm.trans h'
    | repeated h' => rw [Except.ok.inj (h.symm.trans h')]

/-- The declaration at an index cannot follow those in front of it. -/
def RejectsAt (accounts : Accounts) (declarations : List (Value × Value)) (index : Nat)
    (error : RoleError) : Prop :=
  ∃ declaration, declarations[index]? = some declaration ∧
    Rejects accounts (declarations.take index) declaration error

theorem rejectsAt_append_of_lt {front back : List (Value × Value)} {index : Nat} {error : RoleError}
    (hindex : index < front.length) :
    RejectsAt accounts (front ++ back) index error ↔ RejectsAt accounts front index error := by
  unfold RejectsAt
  rw [List.getElem?_append_left hindex, List.take_append_of_le_length (Nat.le_of_lt hindex)]

theorem rejectsAt_length {front back : List (Value × Value)} {declaration : Value × Value}
    {error : RoleError} (h : Rejects accounts front declaration error) :
    RejectsAt accounts (front ++ declaration :: back) front.length error := by
  refine ⟨declaration, by simp, ?_⟩
  rwa [List.take_left]

/-! ### Registered declarations -/

/-- The registry has the roles of the declarations, and no name is declared twice. -/
structure Registers (accounts : Accounts) (declarations : List (Value × Value))
    (registry : Registry) :
    Prop where
  parsed : List.Forall₂
    (fun declaration role => Role.parse accounts declaration.1 declaration.2 = .ok role)
    declarations registry.roles
  distinct : registry.names.Nodup

namespace Registers

theorem map_fst (h : Registers accounts declarations registry) :
    declarations.map Prod.fst = registry.names.map Value.str := by
  have hnames : List.Forall₂ (fun declaration role => declaration.1 = Value.str role.name)
      declarations registry.roles :=
    h.parsed.imp fun _ _ => Role.name_of_parse
  have hsame := List.forall₂_map_left_iff.2 (List.forall₂_map_right_iff.2 hnames)
  rw [List.forall₂_eq_eq_eq] at hsame
  rw [names, List.map_map]
  exact hsame

theorem mem_names_iff (h : Registers accounts declarations registry) {name : Text} :
    Value.str name ∈ declarations.map Prod.fst ↔ name ∈ registry.names := by
  rw [h.map_fst, List.mem_map]
  constructor
  · rintro ⟨other, hmem, heq⟩
    cases heq
    exact hmem
  · exact fun hmem => ⟨name, hmem, rfl⟩

theorem mem_map_fst_of_get? (h : Registers accounts declarations registry) {name : Text}
    {role : Role}
    (hget : registry.get? name = some role) : Value.str name ∈ declarations.map Prod.fst := by
  rw [h.mem_names_iff]
  by_contra hfree
  cases hget.symm.trans (get?_eq_none_iff.2 hfree)

theorem nodup_map_fst (h : Registers accounts declarations registry) :
    (declarations.map Prod.fst).Nodup := by
  rw [h.map_fst]
  refine h.distinct.map fun name other heq => ?_
  cases heq
  rfl

theorem exists_role (h : Registers accounts declarations registry) {declaration : Value × Value}
    (hmem : declaration ∈ declarations) : ∃ role ∈ registry.roles,
      Role.parse accounts declaration.1 declaration.2 = .ok role := by
  obtain ⟨index, hindex, rfl⟩ := List.mem_iff_getElem.1 hmem
  have hrole : index < registry.roles.length := h.parsed.length_eq ▸ hindex
  exact ⟨registry.roles.get ⟨index, hrole⟩, List.get_mem _ _, h.parsed.get hindex hrole⟩

theorem exists_declaration (h : Registers accounts declarations registry) {role : Role}
    (hmem : role ∈ registry.roles) : ∃ declaration ∈ declarations,
      Role.parse accounts declaration.1 declaration.2 = .ok role := by
  obtain ⟨index, hindex, rfl⟩ := List.mem_iff_getElem.1 hmem
  have hdeclaration : index < declarations.length := h.parsed.length_eq ▸ hindex
  exact ⟨declarations.get ⟨index, hdeclaration⟩, List.get_mem _ _,
    h.parsed.get hdeclaration hindex⟩

theorem isBuilt (h : Registers accounts declarations registry) : registry.IsBuilt := by
  refine ⟨fun role hrole => ?_, h.distinct⟩
  obtain ⟨declaration, -, hparse⟩ := h.exists_declaration hrole
  exact ⟨accounts, declaration.1, declaration.2, hparse⟩

theorem empty : Registers accounts [] ⟨[]⟩ := ⟨.nil, List.nodup_nil⟩

/-- One more role, under a name that is free. -/
theorem add (h : Registers accounts earlier registry) {name spec : Value} {role : Role}
    (hparse : Role.parse accounts name spec = .ok role) (hfree : registry.get? role.name = none) :
    Registers accounts (earlier ++ [(name, spec)]) ⟨registry.roles ++ [role]⟩ := by
  refine ⟨List.rel_append h.parsed (.cons hparse .nil), ?_⟩
  have hnew : role.name ∉ registry.names := get?_eq_none_iff.1 hfree
  show ((registry.roles ++ [role]).map (·.name)).Nodup
  rw [List.map_append, List.map_singleton, ← List.concat_eq_append]
  exact h.distinct.concat hnew

/-- What was registered was not rejected anywhere. -/
theorem not_rejectsAt (h : Registers accounts declarations registry) (index : Nat)
    (error : RoleError) : ¬ RejectsAt accounts declarations index error := by
  rintro ⟨declaration, hget, hrejects⟩
  have hsplit : declarations = declarations.take index ++
      declaration :: declarations.drop (index + 1) := by
    obtain ⟨hindex, rfl⟩ := List.getElem?_eq_some_iff.1 hget
    rw [List.getElem_cons_drop, List.take_append_drop]
  cases hrejects with
  | unread hparse =>
    obtain ⟨role, -, hrole⟩ := h.exists_role (List.mem_of_getElem? hget)
    cases hparse.symm.trans hrole
  | repeated hparse hname =>
    -- the name would stand twice among those that are declared
    have hnodup := h.nodup_map_fst
    rw [hsplit, List.map_append, List.map_cons, List.nodup_append] at hnodup
    exact hnodup.2.2 _ hname _ List.mem_cons_self rfl

end Registers

/-! ### Reading declarations -/

section

variable {name spec : Value}

theorem extend_of_error {error : RoleError}
    (hparse : Role.parse accounts name spec = .error error) :
    extend accounts registry ((name, spec) :: declarations) = .error error := by
  rw [extend, hparse]

theorem extend_of_taken {role other : Role} (hparse : Role.parse accounts name spec = .ok role)
    (hget : registry.get? role.name = some other) :
    extend accounts registry ((name, spec) :: declarations) = .error (.duplicate role.name) := by
  rw [extend, hparse]
  dsimp only
  rw [hget]

theorem extend_of_free {role : Role} (hparse : Role.parse accounts name spec = .ok role)
    (hget : registry.get? role.name = none) :
    extend accounts registry ((name, spec) :: declarations) =
      extend accounts ⟨registry.roles ++ [role]⟩ declarations := by
  rw [extend, hparse]
  dsimp only
  rw [hget]

end

/-- Behind declarations that are registered, either all others are registered too, or the first that
is rejected ends the reading with its error. -/
theorem extend_cases (h : Registers accounts earlier registry)
    (declarations : List (Value × Value)) :
    (∃ extended, extend accounts registry declarations = .ok extended ∧
      Registers accounts (earlier ++ declarations) extended) ∨
    ∃ front declaration back error, declarations = front ++ declaration :: back ∧
      extend accounts registry declarations = .error error ∧
      (∃ middle, Registers accounts (earlier ++ front) middle) ∧
      Rejects accounts (earlier ++ front) declaration error := by
  -- what is registered so far goes along with the declarations that are left
  induction declarations generalizing earlier registry with
  | nil => exact Or.inl ⟨registry, rfl, by rwa [List.append_nil]⟩
  | cons declaration declarations ih =>
    obtain ⟨name, spec⟩ := declaration
    have hearlier : ∃ middle, Registers accounts (earlier ++ []) middle :=
      ⟨registry, by rwa [List.append_nil]⟩
    cases hparse : Role.parse accounts name spec with
    | error error =>
      exact Or.inr ⟨[], (name, spec), declarations, error, rfl, extend_of_error hparse, hearlier,
        .unread hparse⟩
    | ok role =>
      cases hget : registry.get? role.name with
      | some other =>
        have hname : name ∈ (earlier ++ []).map Prod.fst := by
          rw [List.append_nil, Role.name_of_parse hparse]
          exact h.mem_map_fst_of_get? hget
        exact Or.inr ⟨[], (name, spec), declarations, .duplicate role.name, rfl,
          extend_of_taken hparse hget, hearlier, .repeated hparse hname⟩
      | none =>
        have hextend := @extend_of_free _ declarations _ _ _ _ hparse hget
        have hfront (front : List (Value × Value)) :
            earlier ++ [(name, spec)] ++ front = earlier ++ (name, spec) :: front := by
          rw [List.append_assoc, List.singleton_append]
        rcases ih (h.add hparse hget) with ⟨extended, hok, hregisters⟩ |
          ⟨front, declaration, back, error, rfl, herror, ⟨middle, hmiddle⟩, hrejects⟩
        · rw [hfront] at hregisters
          exact Or.inl ⟨extended, hextend.trans hok, hregisters⟩
        · rw [hfront] at hmiddle hrejects
          exact Or.inr ⟨(name, spec) :: front, declaration, back, error, rfl,
            hextend.trans herror, ⟨middle, hmiddle⟩, hrejects⟩

/-- No declaration in front of the index is rejected, and the one at the index is. -/
def IsFirstRejected (accounts : Accounts) (declarations : List (Value × Value)) (index : Nat)
    (error : RoleError) : Prop :=
  RejectsAt accounts declarations index error ∧
    ∀ earlier < index, ∀ other, ¬ RejectsAt accounts declarations earlier other

theorem IsFirstRejected.unique {index index' : Nat} {error error' : RoleError}
    (h : IsFirstRejected accounts declarations index error)
    (h' : IsFirstRejected accounts declarations index' error') : error = error' := by
  rcases Nat.lt_trichotomy index index' with hlt | rfl | hlt
  · exact absurd h.1 (h'.2 index hlt error)
  · obtain ⟨⟨declaration, hget, hrejects⟩, -⟩ := h
    obtain ⟨⟨declaration', hget', hrejects'⟩, -⟩ := h'
    obtain rfl : declaration = declaration' := Option.some.inj (hget.symm.trans hget')
    exact hrejects.unique hrejects'
  · exact absurd h'.1 (h.2 index' hlt error')

theorem ofDeclarations_cases (accounts : Accounts) (declarations : List (Value × Value)) :
    (∃ registry, ofDeclarations accounts declarations = .ok registry ∧
      Registers accounts declarations registry) ∨
    ∃ index error, ofDeclarations accounts declarations = .error error ∧
      IsFirstRejected accounts declarations index error := by
  rcases extend_cases (@Registers.empty accounts) declarations with hall |
    ⟨front, declaration, back, error, rfl, herror, ⟨middle, hmiddle⟩, hrejects⟩
  · exact Or.inl hall
  · refine Or.inr ⟨front.length, error, herror, rejectsAt_length hrejects, ?_⟩
    intro index hindex other hother
    exact hmiddle.not_rejectsAt index other ((rejectsAt_append_of_lt hindex).1 hother)

theorem registers_of_ofDeclarations (h : ofDeclarations accounts declarations = .ok registry) :
    Registers accounts declarations registry := by
  rcases ofDeclarations_cases accounts declarations with ⟨_, hok, hregisters⟩ | ⟨_, _, herror, -⟩
  · exact Except.ok.inj (hok.symm.trans h) ▸ hregisters
  · cases herror.symm.trans h

theorem isBuilt_of_ofDeclarations (h : ofDeclarations accounts declarations = .ok registry) :
    registry.IsBuilt :=
  (registers_of_ofDeclarations h).isBuilt

/-- The registry answers for the declarations: it has their names in their order, each with the role
of its one declaration, and no others. -/
structure AnswersFor (accounts : Accounts) (declarations : List (Value × Value))
    (registry : Registry) :
    Prop where
  distinct : (declarations.map Prod.fst).Nodup
  names : registry.names.map Value.str = declarations.map Prod.fst
  declared : ∀ name spec, (Value.str name, spec) ∈ declarations →
    ∃ role, registry.get? name = some role ∧ role.name = name ∧
      Role.parse accounts (.str name) spec = .ok role
  undeclared : ∀ name, Value.str name ∉ declarations.map Prod.fst → registry.get? name = none

theorem Registers.answersFor (h : Registers accounts declarations registry) :
    AnswersFor accounts declarations registry := by
  refine ⟨h.nodup_map_fst, h.map_fst.symm, fun name spec hmem => ?_, fun name hname => ?_⟩
  · obtain ⟨role, hrole, hparse⟩ := h.exists_role hmem
    have hname : role.name = name := by
      cases Role.name_of_parse hparse
      rfl
    exact ⟨role, h.isBuilt.get?_eq_some_iff.2 ⟨hrole, hname⟩, hname, hparse⟩
  · exact get?_eq_none_iff.2 (mt h.mem_names_iff.2 hname)

/-- What reading the declarations comes to: the error of the first that is rejected, or a registry
that answers for all of them where none is. -/
structure IsOutcome (accounts : Accounts) (declarations : List (Value × Value))
    (outcome : Except RoleError Registry) : Prop where
  ok_iff : (∃ registry, outcome = .ok registry) ↔
    ∀ index error, ¬ RejectsAt accounts declarations index error
  error_iff : ∀ error, outcome = .error error ↔
    ∃ index, IsFirstRejected accounts declarations index error
  answers : ∀ registry, outcome = .ok registry → AnswersFor accounts declarations registry

theorem isOutcome_ofDeclarations (accounts : Accounts) (declarations : List (Value × Value)) :
    IsOutcome accounts declarations (ofDeclarations accounts declarations) := by
  rcases ofDeclarations_cases accounts declarations with
    ⟨registry, hok, hregisters⟩ | ⟨index, error, herror, hfirst⟩
  · rw [hok]
    refine ⟨iff_of_true ⟨registry, rfl⟩ hregisters.not_rejectsAt, fun error => ?_, ?_⟩
    · refine iff_of_false (by simp) ?_
      rintro ⟨index, hfirst⟩
      exact hregisters.not_rejectsAt index error hfirst.1
    · intro other heq
      exact Except.ok.inj heq ▸ hregisters.answersFor
  · rw [herror]
    refine ⟨iff_of_false (by simp) fun hnone => hnone index error hfirst.1, fun other => ?_, ?_⟩
    · constructor
      · intro heq
        exact ⟨index, Except.error.inj heq ▸ hfirst⟩
      · rintro ⟨index', hfirst'⟩
        rw [hfirst.unique hfirst']
    · intro registry heq
      cases heq

/-- Why a role is refused, and what a list of declarations comes to. The entries of a mapping are
read as the declarations that they are. -/
theorem declarations_register_in_order (accounts : Accounts) :
    (∀ name spec error, Role.parse accounts name spec = .error error ↔
      Role.Refuses accounts name spec error) ∧
    (∀ declarations, IsOutcome accounts declarations (ofDeclarations accounts declarations)) ∧
    ∀ mapping : Mapping, IsOutcome accounts (mapping.map fun (name, spec) => (.scalar name, spec))
      (ofMapping accounts mapping) :=
  ⟨fun _ _ _ => Role.parse_eq_error_iff, isOutcome_ofDeclarations accounts,
    fun _ => isOutcome_ofDeclarations accounts _⟩

/-- A name that is declared again, once with a specification that cannot be read and once with a
good one, and a group that goes without saying. -/
theorem declarations_register_in_order_again :
    let accounts : Accounts := .ofLists [("u", 1)] [("u", 2)]
    let web : Value × Value := (.str "web", .str "u,644")
    (∃ index, IsFirstRejected accounts [web, (.str "web", .str "u,6")] index
      (.badSpec "web" (.malformed "u,6"))) ∧
    (∃ index, IsFirstRejected accounts [web, web, (.str "0", .null)] index (.duplicate "web")) ∧
    (∀ index error, ¬ RejectsAt accounts [(.str "db", .str "u,/600"), web] index error) ∧
    Role.Refuses (.ofLists [("u", 1)] []) (.str "web") (.str "u,644")
    (.unknownGroup "web" "u") := by
  intro accounts web
  obtain ⟨-, hlist, -⟩ := declarations_register_in_order accounts
  obtain ⟨hrefuses, -, -⟩ := declarations_register_in_order (.ofLists [("u", 1)] [])
  refine ⟨((hlist _).error_iff _).1 rfl, ((hlist _).error_iff _).1 rfl, (hlist _).ok_iff.1 ⟨_, rfl⟩,
    (hrefuses _ _ _).1 rfl⟩

end Registry

end PathRights
