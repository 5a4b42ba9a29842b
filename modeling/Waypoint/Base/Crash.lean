import Mathlib.Data.List.Basic

/-!
# Crashes between atomic steps

A program that may be cut off between any two of its steps. Some steps are exposed: a cut right before one of them leaves a state that is not good, and only such a cut does.
-/

namespace Base

variable {σ ε : Type*} (apply : σ → ε → σ) (good : σ → Prop) (exposed : σ → ε → Prop)

/-- Each state on the way is good exactly if the step that comes next is not exposed, and the last one is good. -/
def Tracked : σ → List ε → Prop
  | s, [] => good s
  | s, e :: es => (good s ↔ ¬exposed s e) ∧ Tracked (apply s e) es

variable {apply good exposed} {s : σ} {e : ε} {es fs : List ε}

theorem Tracked.cons_good (hs : good s) (he : ¬exposed s e) (h : Tracked apply good exposed (apply s e) es) :
    Tracked apply good exposed s (e :: es) :=
  ⟨iff_of_true hs he, h⟩

theorem Tracked.append (h : Tracked apply good exposed s es) (h' : Tracked apply good exposed (es.foldl apply s) fs) :
    Tracked apply good exposed s (es ++ fs) := by
  induction es generalizing s with
  | nil => exact h'
  | cons e es ih => exact ⟨h.1, ih h.2 h'⟩

theorem Tracked.good_last (h : Tracked apply good exposed s es) : good (es.foldl apply s) := by
  induction es generalizing s with
  | nil => exact h
  | cons e es ih => exact ih h.2

theorem Tracked.good_cut_iff (h : Tracked apply good exposed s es) (k : ℕ) :
    good ((es.take k).foldl apply s) ↔ ∀ e ∈ es[k]?, ¬exposed ((es.take k).foldl apply s) e := by
  induction es generalizing s k with
  | nil =>
    have hgood : good s := h
    simpa using hgood
  | cons e es ih =>
    cases k with
    | zero => simpa using h.1
    | succ k => simpa using ih h.2 k

end Base
