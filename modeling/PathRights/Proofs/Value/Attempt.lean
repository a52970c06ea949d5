import PathRights.Value.Mapping
import PathRights.Value.Printer
import PathRights.Yaml.Loose

/-! Operations on values whose type is not known. Each takes values of one type and fails on all
others, so that a check which uses a value has to look at its type before, or else it ends in a
failure that is none of its refusals. -/

namespace PathRights

/-- How an operation on values fails. -/
inductive Trouble where
  /-- A check refuses a value, and says why. -/
  | refused (message : Text)
  /-- The value is not of the type that the operation takes. -/
  | misused (value : Value)
  /-- The key is not in the mapping. -/
  | missing (key : Text)
  /-- The text is no numeral. -/
  | unreadable (fault : Yaml.Fault)
  /-- A number has too many digits to be shown. -/
  | overlong
deriving Repr

/-- What an operation on values gives, unless it fails. -/
abbrev Attempt (α : Type) := Except Trouble α

namespace Attempt

variable {α β : Type}

/-- The attempt gives a result, or a check has refused it. -/
def IsAnswered (attempt : Attempt α) : Prop :=
  (∃ result, attempt = .ok result) ∨ ∃ message, attempt = .error (.refused message)

/-- Refuses, once it can be said why. -/
def refuse (message : Attempt Text) : Attempt α := message >>= fun text => .error (.refused text)

/-- Refuses in one case, and goes on in the other. -/
def refuseIf (condition : Bool) (message : Attempt Text) : Attempt Unit :=
  if condition then refuse message else .ok ()

theorem refuseIf_true_bind (message : Attempt Text) (next : Unit → Attempt β) :
    (refuseIf true message >>= next) = refuse message := by
  cases message <;> rfl

theorem refuseIf_false_bind (message : Attempt Text) (next : Unit → Attempt β) :
    (refuseIf false message >>= next) = next () := rfl

theorem ok_bind (result : α) (next : α → Attempt β) :
    ((Except.ok result : Attempt α) >>= next) = next result := rfl

theorem mapError_bind {ε : Type} (trouble : ε → Trouble) (first : Except ε α)
    (next : α → Except ε β) :
    (first >>= next).mapError trouble =
      first.mapError trouble >>= fun result => (next result).mapError trouble := by
  cases first <;> rfl

/-- Where every error is a refusal, there is an answer. -/
theorem isAnswered_mapError_refused {ε : Type} (message : ε → Text) (check : Except ε α) :
    IsAnswered (check.mapError fun error => .refused (message error)) := by
  cases check with
  | ok result => exact Or.inl ⟨result, rfl⟩
  | error error => exact Or.inr ⟨message error, rfl⟩

end Attempt

namespace Value

/-! ### Types -/

/-- The value is null. -/
def isNull : Value → Bool
  | .scalar .null => true
  | _ => false

/-- The value is a truth value. -/
def isBool : Value → Bool
  | .scalar (.bool _) => true
  | _ => false

/-- The value is a text. -/
def isText (value : Value) : Bool := value.str?.isSome

/-- The value is a mapping. -/
def isMapping (value : Value) : Bool := value.entries?.isSome

theorem null_cases (value : Value) : value.isNull = false ∨ value = .null := by
  unfold isNull
  split
  · exact Or.inr rfl
  · exact Or.inl rfl

theorem text_cases (value : Value) :
    value.isText = false ∧ value.str? = none ∨ ∃ text, value = .str text := by
  unfold isText str?
  split
  · next text => exact Or.inr ⟨text, rfl⟩
  · exact Or.inl ⟨rfl, rfl⟩

theorem mapping_cases (value : Value) :
    value.isMapping = false ∧ value.entries? = none ∨ ∃ entries, value = .map entries := by
  unfold isMapping entries?
  split
  · next entries => exact Or.inr ⟨entries, rfl⟩
  · exact Or.inl ⟨rfl, rfl⟩

/-! ### Operations -/

/-- The text that the value is, for the operations on texts. -/
def asText (value : Value) : Attempt Text :=
  match value.str? with
  | some text => .ok text
  | none => .error (.misused value)

/-- The mapping that the value is, for the operations on mappings. -/
def asMapping (value : Value) : Attempt Mapping :=
  match value.entries? with
  | some entries => .ok entries
  | none => .error (.misused value)

/-- The value of a key, if the mapping has it. -/
def lookUp (value : Value) (key : Text) : Attempt (Option Value) := do
  return (← value.asMapping).getText? key

/-- The mapping has the key. -/
def holds (value : Value) (key : Text) : Attempt Bool := do
  return ((← value.asMapping).getText? key).isSome

/-- The value of a key that the mapping has to have. -/
def member (value : Value) (key : Text) : Attempt Value := do
  match (← value.asMapping).getText? key with
  | some part => return part
  | none => .error (.missing key)

/-- The value as it is shown alone. -/
def shown (value : Value) : Attempt Text :=
  if value.isShowable then .ok value.text else .error .overlong

/-- The value as it is shown inside another. -/
def shownInside (value : Value) : Attempt Text :=
  if value.isShowable then .ok value.inner else .error .overlong

/-- The number that the text writes in a base. -/
def readIn (value : Value) (base : Nat) : Attempt Int := do
  match Yaml.looseInteger base (← value.asText) with
  | .ok number => return number
  | .error fault => .error (.unreadable fault)

theorem readIn_str {text : Text} {base : Nat} {number : Int}
    (h : Yaml.looseInteger base text = .ok number) : (Value.str text).readIn base = .ok number := by
  have htext : (Value.str text).asText = .ok text := rfl
  unfold readIn
  rw [htext, Attempt.ok_bind, h]
  rfl

/-- The value, or an empty mapping in the place of one that counts as nothing. -/
def orEmpty (value : Value) : Value := if value.isEmpty then .map [] else value

/-! ### Operations on mappings -/

section

variable (entries : Mapping) (key : Text)

theorem unlessMapping_map (message : Attempt Text) (next : Unit → Attempt Unit) :
    (Attempt.refuseIf (!(Value.map entries).isMapping) message >>= next) = next () := rfl

theorem lookUp_map : (Value.map entries).lookUp key = .ok (entries.getText? key) := rfl

theorem holds_map : (Value.map entries).holds key = .ok (entries.getText? key).isSome := rfl

theorem member_map {part : Value} (h : entries.getText? key = some part) :
    (Value.map entries).member key = .ok part := by
  show (match entries.getText? key with | some part => _ | none => _) = _
  rw [h]
  rfl

end

end Value

end PathRights
