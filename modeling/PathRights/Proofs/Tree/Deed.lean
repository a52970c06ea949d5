import Mathlib.Data.List.TakeWhile
import PathRights.Proofs.Tree.Location
import PathRights.Proofs.Tree.Simulation

/-! Work on a tree written down as a list of deeds. A deed is one call, one report, one count or one
change of a mode; a deed may also end the work, and those behind it are not done. `Does` says that
work does what a list of deeds says. What the deeds of work lead to can then be read off the list:
the calls, the events and the changes are those of the deeds that are done. -/

namespace PathRights

/-- The reason for which a failure ends work; an error of the system does not. -/
def Failure.abort? : Failure → Option Abort
  | .system _ => none
  | .crash fault => some (.crash fault)
  | .interrupt => some .interrupt

/-- The error of a failure that does not end work. -/
def Failure.error? : Failure → Option SystemError
  | .system error => some error
  | .crash _ | .interrupt => none

/-- The answer of a call that may be set up to fail. -/
def Failure.orElse {α : Type} (failure : Option Failure) (answer : α) : Except Failure α :=
  match failure with
  | none => .ok answer
  | some failure => .error failure

/-- One thing that work on a tree does. -/
inductive Deed where
  | count (f : Stats → Stats)
  | report (event : Event)
  /-- The counts are reported. -/
  | total
  | call (made : Call)
  | change (location : Location) (mode : Int)
  | abort (reason : Abort)

namespace Deed

/-- The reason for which a deed ends the work. -/
def abort? : Deed → Option Abort
  | .abort reason => some reason
  | _ => none

/-- The call that a deed is. -/
def call? : Deed → Option Call
  | .call made => some made
  | _ => none

/-- The mode that a deed changes. -/
def change? : Deed → Option (Location × Int)
  | .change location mode => some (location, mode)
  | _ => none

/-- What a deed makes of the counts. -/
def counted : Deed → Stats → Stats
  | .count f => f
  | _ => id

/-- What a deed tells, with these counts. -/
def told : Deed → Stats → Option Event
  | .report event, _ => some event
  | .total, stats => some (.walkComplete stats)
  | _, _ => none

/-- What a deed makes of a session. -/
def apply (manner : Manner) (deed : Deed) (s : Session) : Session where
  tree := deed.change?.elim s.tree fun (location, mode) => s.tree.setMode mode location
  calls := s.calls ++ deed.call?.toList
  events := s.events ++ ((deed.told s.stats).filter manner.reports).toList
  stats := deed.counted s.stats

/-- The deeds up to one that ends the work. -/
def done (deeds : List Deed) : List Deed := deeds.takeWhile (·.abort?.isNone)

/-- How the work ends. -/
def ending (deeds : List Deed) : Except Abort Unit :=
  match deeds.findSome? abort? with
  | some reason => .error reason
  | none => .ok ()

/-- What deeds lead to. -/
def carryOut (manner : Manner) (deeds : List Deed) (s : Session) : Except Abort Unit × Session :=
  (ending deeds, (done deeds).foldl (fun s deed => deed.apply manner s) s)

/-- The calls among deeds. -/
def calls (deeds : List Deed) : List Call := deeds.filterMap call?

/-- The changes among deeds. -/
def changes (deeds : List Deed) : List (Location × Int) := deeds.filterMap change?

/-! ### Lists of deeds -/

theorem carryOut_cons (manner : Manner) (deed : Deed) (deeds : List Deed) (s : Session) :
    carryOut manner (deed :: deeds) s =
      match deed.abort? with
      | some reason => (.error reason, s)
      | none => carryOut manner deeds (deed.apply manner s) := by
  unfold carryOut ending done
  cases h : deed.abort? <;> simp [h]

/-- Deeds are done after others if these do not end the work. -/
theorem carryOut_append (manner : Manner) (deeds more : List Deed) (s : Session) :
    carryOut manner (deeds ++ more) s =
      match carryOut manner deeds s with
      | (.ok (), s') => carryOut manner more s'
      | (.error reason, s') => (.error reason, s') := by
  induction deeds generalizing s with
  | nil => rfl
  | cons deed deeds ih =>
    rw [List.cons_append, carryOut_cons, carryOut_cons]
    cases deed.abort? with
    | some reason => rfl
    | none => exact ih _

theorem prefix_done (deeds : List Deed) : done deeds <+: deeds := List.takeWhile_prefix _

theorem done_append (front back : List Deed) :
    done (front ++ back) =
      if (done front).length = front.length then front ++ done back else done front :=
  List.takeWhile_append

theorem prefix_done_take (deeds : List Deed) (n : Nat) : done (deeds.take n) <+: done deeds := by
  have hsplit := done_append (deeds.take n) (deeds.drop n)
  rw [List.take_append_drop] at hsplit
  rw [hsplit]
  split
  · next hall =>
    rw [(prefix_done _).eq_of_length hall]
    exact List.prefix_append _ _
  · exact List.prefix_refl _

theorem mem_of_mem_calls_done {deeds : List Deed} {made : Call} (h : made ∈ calls (done deeds)) :
    made ∈ calls deeds := ((prefix_done deeds).sublist.filterMap _).subset h

theorem mem_of_mem_changes_done {deeds : List Deed} {change : Location × Int}
    (h : change ∈ changes (done deeds)) : change ∈ changes deeds :=
  ((prefix_done deeds).sublist.filterMap _).subset h

/-- Work that comes to its end does all its deeds. -/
theorem done_eq_self {deeds : List Deed} (h : ending deeds = .ok ()) : done deeds = deeds := by
  unfold ending at h
  split at h
  · cases h
  · next hnone =>
    refine List.takeWhile_eq_self_iff.2 fun deed hdeed => ?_
    rw [List.findSome?_eq_none_iff.1 hnone deed hdeed]
    rfl

end Deed

namespace Node

/-- The tree after changes of modes. -/
def setModes (tree : Node) (changes : List (Location × Int)) : Node :=
  changes.foldl (fun tree change => tree.setMode change.2 change.1) tree

@[simp] theorem setModes_nil (tree : Node) : tree.setModes [] = tree := rfl

@[simp] theorem setModes_cons (tree : Node) (change : Location × Int)
    (changes : List (Location × Int)) :
    tree.setModes (change :: changes) = (tree.setMode change.2 change.1).setModes changes := rfl

end Node

namespace Deed

variable (manner : Manner)

/-! ### What is left of a session -/

/-- Deeds see the tree only to change modes in it. -/
theorem foldl_apply_with_tree (deeds : List Deed) (s : Session) (tree : Node) :
    deeds.foldl (fun s deed => deed.apply manner s) { s with tree } =
      { deeds.foldl (fun s deed => deed.apply manner s) s with
        tree := tree.setModes (changes deeds) } := by
  induction deeds generalizing s tree with
  | nil => rfl
  | cons deed deeds ih =>
    refine (ih (deed.apply manner s) _).trans ?_
    unfold changes
    cases hchange : deed.change? with
    | none =>
      rw [List.filterMap_cons_none hchange]
      rfl
    | some change =>
      rw [List.filterMap_cons_some hchange]
      rfl

/-- The tree that deeds leave behind has the changes of those that are done. -/
theorem carryOut_tree (deeds : List Deed) (s : Session) :
    (carryOut manner deeds s).2.tree = s.tree.setModes (changes (done deeds)) :=
  congrArg Session.tree (foldl_apply_with_tree manner (done deeds) s s.tree)

theorem tree_of_carryOut {manner : Manner} {deeds : List Deed} {s s' : Session}
    (h : carryOut manner deeds s = (.ok (), s')) : s'.tree = s.tree.setModes (changes deeds) := by
  have hdone : done deeds = deeds := done_eq_self (congrArg Prod.fst h)
  have htree := carryOut_tree manner deeds s
  rw [h, hdone] at htree
  exact htree

theorem carryOut_calls (deeds : List Deed) (s : Session) :
    (carryOut manner deeds s).2.calls = s.calls ++ calls (done deeds) := by
  unfold carryOut
  generalize done deeds = deeds
  induction deeds generalizing s with
  | nil => simp [calls]
  | cons deed deeds ih =>
    refine (ih (deed.apply manner s)).trans ?_
    show s.calls ++ deed.call?.toList ++ calls deeds = _
    rw [List.append_assoc]
    unfold calls
    cases hcall : deed.call? with
    | none =>
      rw [List.filterMap_cons_none hcall]
      rfl
    | some made =>
      rw [List.filterMap_cons_some hcall]
      rfl

/-- What is told while deeds are done was told before, is one of their reports, or the counts. -/
theorem mem_carryOut_events {deeds : List Deed} {s : Session} {event : Event}
    (h : event ∈ (carryOut manner deeds s).2.events) :
    event ∈ s.events ∨ .report event ∈ deeds ∨ ∃ stats, event = .walkComplete stats := by
  have hdone : event ∈ s.events ∨ .report event ∈ done deeds ∨
      ∃ stats, event = .walkComplete stats := by
    unfold carryOut at h
    generalize done deeds = deeds at h ⊢
    induction deeds generalizing s with
    | nil => exact Or.inl h
    | cons deed deeds ih =>
      rcases ih h with h | h | h
      · rcases List.mem_append.1 h with h | h
        · exact Or.inl h
        · have htold : deed.told s.stats = some event :=
            (Option.filter_eq_some_iff.1 (Option.mem_toList.1 h)).1
          cases deed with
          | report told =>
            cases htold
            exact Or.inr (Or.inl List.mem_cons_self)
          | total => exact Or.inr (Or.inr ⟨_, (Option.some.inj htold).symm⟩)
          | _ => cases htold
      · exact Or.inr (Or.inl (List.mem_cons_of_mem _ h))
      · exact Or.inr (Or.inr h)
  rcases hdone with h | h | h
  · exact Or.inl h
  · exact Or.inr (Or.inl ((prefix_done deeds).subset h))
  · exact Or.inr (Or.inr h)

end Deed

/-! ### Work that does deeds -/

namespace Work

open Deed

variable {α β : Type} {manner : Manner} {s : Session}

/-- In a session, work does what the deeds say, with a result when it comes to its end. -/
def Does (manner : Manner) (deeds : List Deed) (result : α) (work : Work α) (s : Session) : Prop :=
  outcome work s =
    ((carryOut manner deeds s).1.map fun _ => result, (carryOut manner deeds s).2)

theorem does_pure (result : α) : Does manner [] result (pure result) s := rfl

theorem does_throw (reason : Abort) (result : α) :
    Does manner [.abort reason] result (throw reason) s := rfl

theorem does_bind {work : Work α} {next : α → Work β} {deeds more : List Deed} {a : α} {b : β}
    (h : Does manner deeds a work s)
    (hnext : ∀ s', carryOut manner deeds s = (.ok (), s') → Does manner more b (next a) s') :
    Does manner (deeds ++ more) b (work >>= next) s := by
  unfold Does at h ⊢
  rw [outcome_bind, h, carryOut_append]
  cases hdeeds : carryOut manner deeds s with
  | mk result s' =>
    cases result with
    | ok _ => exact hnext s' hdeeds
    | error reason => rfl

theorem does_modify {f : Session → Session} {deed : Deed} (hgoes : deed.abort? = none)
    (h : deed.apply manner s = f s) : Does manner [deed] () (modify f) s := by
  unfold Does
  rw [carryOut_cons, hgoes]
  dsimp only
  rw [h]
  rfl

theorem does_count (f : Stats → Stats) : Does manner [.count f] () (count f) s :=
  does_modify rfl (by simp [apply, Deed.change?, call?, told, counted])

theorem does_report (event : Event) : Does manner [.report event] () (report manner event) s := by
  refine does_modify rfl ?_
  by_cases h : manner.reports event
  · simp [apply, Deed.change?, call?, told, counted, h]
  · simp [apply, Deed.change?, call?, told, counted, h, Option.filter]

theorem does_recordCall (made : Call) : Does manner [.call made] () (recordCall made) s :=
  does_modify rfl (by simp [apply, Deed.change?, call?, told, counted])

/-- Deeds that change modes, and do nothing else. -/
theorem carryOut_changes (changed : List (Location × Int)) :
    carryOut manner (changed.map fun (location, mode) => .change location mode) s =
      (.ok (), { s with tree := s.tree.setModes changed }) := by
  induction changed generalizing s with
  | nil => rfl
  | cons change changed ih =>
    rw [List.map_cons, carryOut_cons]
    refine ih.trans ?_
    simp [apply, Deed.change?, call?, told, counted]

/-! ### Questions -/

/-- The deeds of a call that changes modes unless it fails. -/
def callDeeds (failure : Option Failure) (changed : List (Location × Int)) : List Deed :=
  match failure with
  | none => changed.map fun (location, mode) => .change location mode
  | some failure => failure.abort?.toList.map .abort

theorem does_callOn {target : Target} {call : Location → Node → Except Failure Node}
    {failure : Option Failure} {changed : List (Location × Int)}
    (hanswer : answerAt target call s.tree = Failure.orElse failure (s.tree.setModes changed)) :
    Does manner (callDeeds failure changed) (failure.bind Failure.error?)
      (callOn target call) s := by
  unfold Does
  rw [outcome_callOn, hanswer]
  cases failure with
  | none =>
    unfold callDeeds
    rw [carryOut_changes]
    rfl
  | some failure => cases failure <;> rfl

theorem does_ask_ok {question : Node → Except Failure α} {next : Except SystemError α → Work β}
    {deeds : List Deed} {a : α} {b : β} (h : question s.tree = .ok a)
    (hnext : Does manner deeds b (next (.ok a)) s) :
    Does manner deeds b (ask question >>= next) s := by
  unfold Does
  rw [outcome_bind, outcome_ask, h]
  exact hnext

theorem does_ask_error {question : Node → Except Failure α} {next : Except SystemError α → Work β}
    {deeds : List Deed} {error : SystemError} {b : β} (h : question s.tree = .error (.system error))
    (hnext : Does manner deeds b (next (.error error)) s) :
    Does manner deeds b (ask question >>= next) s := by
  unfold Does
  rw [outcome_bind, outcome_ask, h]
  exact hnext

theorem does_ask_abort {question : Node → Except Failure α} {next : Except SystemError α → Work β}
    {failure : Failure} {reason : Abort} {b : β} (h : question s.tree = .error failure)
    (hreason : failure.abort? = some reason) :
    Does manner [.abort reason] b (ask question >>= next) s := by
  unfold Does
  rw [outcome_bind, outcome_ask, h]
  cases failure with
  | system error => cases hreason
  | crash fault =>
    cases hreason
    rfl
  | interrupt =>
    cases hreason
    rfl

end Work

end PathRights
