import Mathlib.Data.List.Basic
import PathRights.Config.Loading

/-! Loading a file of configuration. A file ends in a mapping or in an error with a status, unless
its path leads nowhere, its bytes are no text, its mapping contains itself, or the reader of its
document fails: `Upsets` names these cases and `ofFile_unforeseen_iff` says that there are no
others. -/

namespace PathRights

namespace Disk

variable {disk : Disk} {place : Text}

theorem look_of_readBytes {bytes : List UInt8} (h : disk.readBytes place = .ok bytes) :
    ∃ entry, disk.look place = .ok (some entry) := by
  unfold readBytes at h
  split at h
  · cases h
  · next hname =>
    cases hstat : disk.stat place with
    | error error =>
      rw [hstat] at h
      cases h
    | ok entry =>
      unfold look
      rw [if_neg hname, hstat]
      exact ⟨entry, rfl⟩

/-- Text is read from a disk as long as the bytes can be, and are text. -/
theorem readText_eq_undecodable_iff {fault : Text.Utf8Fault} :
    disk.readText place = .error (.undecodable fault) ↔
      ∃ bytes, disk.readBytes place = .ok bytes ∧ Text.ofUtf8 bytes = .error fault := by
  have hbytes : disk.readBytes place ≠ .error (.undecodable fault) := by
    unfold readBytes
    split
    · exact nofun
    · split <;> exact nofun
  unfold readText
  cases hread : disk.readBytes place with
  | error error =>
    rw [hread] at hbytes
    simpa using hbytes
  | ok bytes =>
    unfold textOfBytes
    cases hutf : Text.ofUtf8 bytes <;> simp [hutf]

theorem readBytes_of_readText {text : Text} (h : disk.readText place = .ok text) :
    ∃ bytes, disk.readBytes place = .ok bytes := by
  unfold readText at h
  split at h
  · cases h
  · next bytes hbytes => exact ⟨bytes, hbytes⟩

end Disk

namespace Config

/-! ### Files -/

/-- What a file is not loaded for, without a status: its path leads nowhere that could be looked at,
its bytes are no text, its mapping contains itself, or the reader of its document fails. -/
inductive Upsets (reader : Reader) (disk : Disk) (path : Text) : LoadError → Prop where
  | unexpanded {error : FileError} (h : disk.expand path = .error error) :
    Upsets reader disk path (.unavailable error)
  | unseen {place : Text} {error : FileError} (hplace : disk.expand path = .ok place)
    (h : disk.look place = .error error) : Upsets reader disk path (.unavailable error)
  | undecodable {place : Text} {bytes : List UInt8} {fault : Text.Utf8Fault}
    (hplace : disk.expand path = .ok place) (hbytes : disk.readBytes place = .ok bytes)
    (h : Text.ofUtf8 bytes = .error fault) :
    Upsets reader disk path (.unavailable (.undecodable fault))
  | endless {place text : Text} (hplace : disk.expand path = .ok place)
    (htext : disk.readText place = .ok text) (h : reader.read text = .error .endless) :
    Upsets reader disk path .endless
  | readerFailed {place text : Text} {fault : Crash} (hplace : disk.expand path = .ok place)
    (htext : disk.readText place = .ok text) (h : reader.read text = .error (.crash fault)) :
    Upsets reader disk path (.readerFailed fault)

variable {reader : Reader} {disk : Disk} {path : Text} {error : LoadError}

theorem upsets_of_ofText {place text : Text} (hplace : disk.expand path = .ok place)
    (htext : disk.readText place = .ok text) (h : ofText reader path text = .error error)
    (hstatus : error.status? = none) : Upsets reader disk path error := by
  unfold ofText at h
  split at h
  · cases h
    cases hstatus
  · next hread =>
    cases h
    exact .endless hplace htext hread
  · next fault hread =>
    cases h
    exact .readerFailed hplace htext hread
  · split at h
    · cases h
      cases hstatus
    · cases h

theorem upsets_of_ofFile (h : ofFile reader disk path = .error error)
    (hstatus : error.status? = none) : Upsets reader disk path error := by
  unfold ofFile at h
  split at h
  · next hplace =>
    cases h
    exact .unexpanded hplace
  · next place hplace =>
    unfold ofFileAt at h
    split at h
    · next hlook =>
      cases h
      exact .unseen hplace hlook
    · cases h
      cases hstatus
    · split at h
      · next hread =>
        cases h
        obtain ⟨bytes, hbytes, hfault⟩ := Disk.readText_eq_undecodable_iff.1 hread
        exact .undecodable hplace hbytes hfault
      · cases h
        cases hstatus
      · next text htext => exact upsets_of_ofText hplace htext h hstatus

/-- A file whose text can be read is as its text is. -/
theorem ofFile_of_readText {place text : Text} (hplace : disk.expand path = .ok place)
    (htext : disk.readText place = .ok text) :
    ofFile reader disk path = ofText reader path text := by
  obtain ⟨bytes, hbytes⟩ := Disk.readBytes_of_readText htext
  obtain ⟨entry, hlook⟩ := Disk.look_of_readBytes hbytes
  unfold ofFile ofFileAt
  simp only [hplace, hlook, htext]

theorem Upsets.ofFile_eq (h : Upsets reader disk path error) :
    ofFile reader disk path = .error error ∧ error.status? = none := by
  cases h with
  | unexpanded h =>
    refine ⟨?_, rfl⟩
    unfold ofFile
    rw [h]
  | unseen hplace h =>
    refine ⟨?_, rfl⟩
    unfold ofFile ofFileAt
    simp only [hplace, h]
  | undecodable hplace hbytes h =>
    obtain ⟨entry, hlook⟩ := Disk.look_of_readBytes hbytes
    have htext := Disk.readText_eq_undecodable_iff.2 ⟨_, hbytes, h⟩
    refine ⟨?_, rfl⟩
    unfold ofFile ofFileAt
    simp only [hplace, hlook, htext]
  | endless hplace htext h =>
    rw [ofFile_of_readText hplace htext, ofText, h]
    exact ⟨rfl, rfl⟩
  | readerFailed hplace htext h =>
    rw [ofFile_of_readText hplace htext, ofText, h]
    exact ⟨rfl, rfl⟩

theorem ofFile_unforeseen_iff : ofFile reader disk path = .error error ∧ error.status? = none ↔
    Upsets reader disk path error :=
  ⟨fun ⟨h, hstatus⟩ => upsets_of_ofFile h hstatus, Upsets.ofFile_eq⟩

theorem ofFile_of_read {place text : Text} {entries : Mapping}
    (hplace : disk.expand path = .ok place)
    (htext : disk.readText place = .ok text) (h : reader.read text = .ok (.map entries)) :
    ofFile reader disk path = .ok entries := by
  rw [ofFile_of_readText hplace htext, ofText, h]
  rfl

/-- A reader that answers does not fail on any file. -/
theorem Upsets.of_answers (hreader : reader.Answers) (h : Upsets reader disk path error) :
    error = .endless ∨ ∃ fileError, error = .unavailable fileError := by
  cases h with
  | unexpanded | unseen | undecodable => exact Or.inr ⟨_, rfl⟩
  | endless => exact Or.inl rfl
  | readerFailed _ _ h => exact absurd h (hreader _ _)

theorem loadFile_eq_error_iff {layers : Layers} {source : Source} :
    layers.loadFile reader disk path source = .error error ↔
      ofFile reader disk path = .error error := by
  unfold Layers.loadFile
  cases ofFile reader disk path <;> simp

/-! ### The environment -/

/-- No variable has a name that counts. -/
def SetsNothing (environment : List (Text × Text)) : Prop :=
  ∀ entry ∈ environment, ¬ variablePrefix <+: entry.1

theorem addVariable_of_uncounted {section_ : Mapping} {name value : Text}
    (h : ¬ variablePrefix <+: name) : addVariable section_ name value = .ok section_ := by
  unfold addVariable
  cases hrest : variablePrefix.isPrefixOf? name with
  | none => rfl
  | some rest => exact absurd ⟨rest, List.isPrefixOf?_eq_some_iff_append_eq.1 hrest⟩ h

theorem ofEnvironment_of_setsNothing {environment : List (Text × Text)}
    (h : SetsNothing environment) : ofEnvironment environment = .ok none := by
  have hsection : sectionOfVariables [] environment = .ok [] := by
    induction environment with
    | nil => rfl
    | cons entry rest ih =>
      obtain ⟨hname, hrest⟩ := List.forall_mem_cons.1 h
      unfold sectionOfVariables
      rw [addVariable_of_uncounted hname]
      exact ih hrest
  unfold ofEnvironment
  rw [hsection]
  rfl

theorem start_eq_error_iff {file : Option Text} {environment : List (Text × Text)}
    {error : StartError} (henvironment : SetsNothing environment) :
    Layers.start reader disk file (some environment) = .error error ↔
      ∃ path loadError, file = some path ∧ path ≠ [] ∧ ofFile reader disk path = .error loadError ∧
        error = .file loadError := by
  have hwith (layers : Layers) : layers.withEnvironment environment = .ok layers := by
    unfold Layers.withEnvironment
    rw [ofEnvironment_of_setsNothing henvironment]
  unfold Layers.start
  rcases file with _ | _ | ⟨c, path⟩
  · simp [hwith]
  · simp [hwith]
  · dsimp only
    unfold Layers.loadFile
    cases hload : ofFile reader disk (c :: path) with
    | error loadError => simp [hload, eq_comm]
    | ok mapping => simp [hload, hwith]

theorem start_of_ofFile {environment : List (Text × Text)}
    {mapping : Mapping} (henvironment : SetsNothing environment) (hpath : path ≠ [])
    (h : ofFile reader disk path = .ok mapping) :
    Layers.start reader disk (some path) (some environment) =
      .ok (.set .initial .user mapping) := by
  obtain ⟨c, rest, rfl⟩ := List.exists_cons_of_ne_nil hpath
  unfold Layers.start Layers.loadFile
  dsimp only
  rw [h]
  dsimp only
  unfold Layers.withEnvironment
  rw [ofEnvironment_of_setsNothing henvironment]

end Config

end PathRights
