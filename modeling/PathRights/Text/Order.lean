import PathRights.Text.Basic

/-!
The order of texts: by the numbers of their characters, at the first place where they differ. A text
stands in front of every longer text that it starts.
-/

namespace PathRights.Text

/-- The first text does not stand behind the second. -/
def isAtMost : Text → Text → Bool
  | [], _ => true
  | _ :: _, [] => false
  | c :: s, d :: t => if c = d then isAtMost s t else c.toNat < d.toNat

/-- The order is total. -/
theorem isAtMost_total (s t : Text) : isAtMost s t || isAtMost t s := by
  induction s generalizing t with
  | nil => simp [isAtMost]
  | cons c s ih =>
    cases t with
    | nil => simp [isAtMost]
    | cons d t =>
      by_cases h : c = d
      · subst h; simpa [isAtMost] using ih t
      · have hn : c.toNat ≠ d.toNat := fun e => h (Char.toNat_inj.mp e)
        simp only [isAtMost, h, Ne.symm h, if_false, Bool.or_eq_true, decide_eq_true_eq]
        omega

/-- The order is transitive. -/
theorem isAtMost_trans {s t u : Text} (h : isAtMost s t) (h' : isAtMost t u) : isAtMost s u := by
  induction s generalizing t u with
  | nil => simp [isAtMost]
  | cons c s ih =>
    match t, u, h, h' with
    | [], _, h, _ => simp [isAtMost] at h
    | _ :: _, [], _, h' => simp [isAtMost] at h'
    | d :: t, e :: u, h, h' =>
      unfold isAtMost at h h' ⊢
      split at h <;> split at h' <;> split <;> simp_all
      · exact ih h h'
      · omega
      · omega

/-- Two texts that do not stand behind each other are equal. -/
theorem eq_of_isAtMost {s t : Text} (h : isAtMost s t) (h' : isAtMost t s) : s = t := by
  induction s generalizing t with
  | nil => cases t <;> simp_all [isAtMost]
  | cons c s ih =>
    cases t with
    | nil => simp [isAtMost] at h
    | cons d t =>
      by_cases hc : c = d
      · subst hc
        simp only [isAtMost, if_true] at h h'
        rw [ih h h']
      · simp only [isAtMost, hc, Ne.symm hc, if_false, decide_eq_true_eq] at h h'
        omega

example : isAtMost "Ab" "ab" ∧ isAtMost "a" "ab" ∧ !isAtMost "é" "z" := by decide

end PathRights.Text
