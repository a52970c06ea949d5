import Mathlib.Data.List.Induction
import PathRights.Proofs.Config.Sharing

/-! What is asked of a manager of configuration: loads of values and of files, at any source, and
reads of what they come to. A load brings the same mapping, or fails with the same words, whatever
was loaded before it; and of the loads that succeed, only the last of each source is left. So the
order of loads shows nowhere, and a load that fails shows in its own answer only. -/

namespace PathRights.Config

/-- What is loaded into a source: a value, or a file as the disk has it and a reader reads it at the
time. -/
inductive Load where
  | value (value : Value) (source : Source)
  | file (reader : Reader) (disk : Disk) (path : Text) (source : Source)

/-- What is asked of a manager. -/
inductive Request where
  | put (load : Load)
  | get

/-- What a manager answers. A load that fails says why. -/
inductive Answer where
  | done
  | failed (message : Text)
  | config (config : Mapping)

namespace Load

/-- The source that is loaded. -/
def source : Load → Source
  | .value _ source => source
  | .file _ _ _ source => source

/-- The mapping that a load brings, or why it brings none. -/
def outcome : Load → Except Text Mapping
  | .value given _ =>
    match given.entries? with
    | none => .error (NotMapping.mk given).message
    | some entries => .ok (merge [] entries)
  | .file reader disk path _ => (ofFile reader disk path).mapError LoadError.message

/-- The mapping that a load brings, if it succeeds. -/
def mapping? (load : Load) : Option Mapping := load.outcome.toOption

end Load

/-- The layers after a load. -/
def Layers.afterLoad (layers : Layers) (load : Load) : Layers :=
  match load.mapping? with
  | some mapping => layers.set load.source mapping
  | none => layers

namespace Request

/-- The layers after a request. -/
def effect (layers : Layers) : Request → Layers
  | .put load => layers.afterLoad load
  | .get => layers

/-- The answer to a request. -/
def answer (layers : Layers) : Request → Answer
  | .put load =>
    match load.outcome with
    | .ok _ => .done
    | .error message => .failed message
  | .get => .config layers.merged

end Request

/-- The answers to several requests. -/
def Request.answers (layers : Layers) : List Request → List Answer
  | [] => []
  | request :: rest => request.answer layers :: answers (request.effect layers) rest

namespace Shared

open Cells

variable {shared : Shared} {layers : Layers}

theorem Shows.hand (h : shared.Shows layers) (value : Value) :
    (shared.hand value).Shows layers ∧
      ∀ more, redeem ((shared.hand value).cells ++ more) (shared.hand value).data = value := by
  obtain ⟨added, hcells, hvalue⟩ := redeem_deposit shared.cells value
  have hmore := h.add_cells added (deposit shared.cells value).1 shared.result
  rw [← hcells] at hmore
  exact ⟨hmore, hvalue⟩

end Shared

/-! ### The loads that are left -/

namespace Layers

end Layers

namespace Request

end Request

namespace Shared

end Shared

end PathRights.Config
