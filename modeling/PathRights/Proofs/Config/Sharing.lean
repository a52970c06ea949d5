import PathRights.Config.Shared

/-! What shared layers show. A list in a cell can be changed by everyone who has its slip, but
loading and reading change none: cells are only added. So shared layers show the same plain layers
for good, `Shows` says which, and what is merged from them is what is merged from the plain ones. -/

namespace PathRights.Config

namespace Cells

mutual

/-- What is put into cells is there to be redeemed, whatever cells come behind. -/
theorem redeem_deposit (cells : Cells) (value : Value) :
    ∃ added, (deposit cells value).2 = cells ++ added ∧
      ∀ more, redeem ((deposit cells value).2 ++ more) (deposit cells value).1 = value := by
  match value with
  | .scalar s => exact ⟨[], by simp [deposit], fun more => by simp [deposit, redeem]⟩
  | .list items =>
    exact ⟨[items], by simp [deposit], fun more => by
      simp [deposit, redeem, slip, ofSlip?, Value.int]⟩
  | .map entries =>
    obtain ⟨added, hcells, hentries⟩ := redeemEntries_depositEntries cells entries
    refine ⟨added, by simpa [deposit] using hcells, fun more => ?_⟩
    simpa [deposit, redeem] using hentries more

theorem redeemEntries_depositEntries (cells : Cells) (entries : List (Scalar × Value)) :
    ∃ added, (depositEntries cells entries).2 = cells ++ added ∧
      ∀ more, redeemEntries ((depositEntries cells entries).2 ++ more)
        (depositEntries cells entries).1 = entries := by
  match entries with
  | [] => exact ⟨[], by simp [depositEntries], fun more => by simp [depositEntries, redeemEntries]⟩
  | (key, value) :: rest =>
    obtain ⟨first, hfirst, hvalue⟩ := redeem_deposit cells value
    obtain ⟨second, hsecond, hrest⟩ :=
      redeemEntries_depositEntries (deposit cells value).2 rest
    refine ⟨first ++ second, ?_, fun more => ?_⟩
    · simp only [depositEntries]
      rw [hsecond, hfirst, List.append_assoc]
    · simp only [depositEntries, redeemEntries]
      rw [hrest more, hsecond, List.append_assoc, hvalue]

end

end Cells

namespace Shared

open Cells

variable {shared : Shared} {layers : Layers}

/-- Shared layers show plain ones, and go on to do so when cells are added. -/
def Shows (shared : Shared) (layers : Layers) : Prop :=
  ∀ more source, (shared.layers source).map (redeemEntries (shared.cells ++ more)) = layers source

/-- Cells that are added leave what is shown as it is. -/
theorem Shows.add_cells (h : shared.Shows layers) (added : Cells) (data result : Value) :
    Shows ⟨shared.layers, shared.cells ++ added, data, result⟩ layers := by
  intro more source
  show (shared.layers source).map (redeemEntries (shared.cells ++ added ++ more)) = _
  rw [List.append_assoc]
  exact h _ source

/-- A layer that is set shows what its slips stand for. -/
theorem Shows.set (h : shared.Shows layers) (source : Source) {slips mapping : Mapping}
    (hslips : ∀ more, redeemEntries (shared.cells ++ more) slips = mapping) :
    Shows { shared with layers := shared.layers.set source slips } (layers.set source mapping) := by
  intro more other
  unfold Layers.set
  dsimp only
  split
  · exact congrArg some (hslips more)
  · exact h more other

theorem Shows.put (h : shared.Shows layers) (source : Source) (mapping : Mapping) :
    (shared.put source mapping).Shows (layers.set source mapping) := by
  obtain ⟨added, hcells, hslips⟩ := redeemEntries_depositEntries shared.cells mapping
  have hmore := h.add_cells added shared.data shared.result
  rw [← hcells] at hmore
  exact hmore.set source hslips

end Shared

end PathRights.Config
