import Mathlib.Data.List.Chain

/-!
# Schedules that a loop polls

A loop looks at its schedules once a pass. A schedule whose deadline has come fires, and its deadline moves by one period, however late it is.
-/

namespace Base.Periodic

def Paced (gap : Nat) (ts : List Nat) : Prop := ts.IsChain fun t t' => t' ≤ t + gap

variable {period next : Nat} {ts : List Nat}

theorem Paced.tail {gap t : Nat} (h : Paced gap (t :: ts)) : Paced gap ts ∧ ∀ t' ∈ ts.head?, t' ≤ t + gap := by
  cases ts with
  | nil => exact ⟨.nil, by simp⟩
  | cons t' ts =>
    rw [Paced, List.isChain_cons_cons] at h
    exact ⟨h.2, by simpa using h.1⟩

theorem Paced.mono {gap gap' : Nat} (h : Paced gap ts) (hgap : gap ≤ gap') : Paced gap' ts :=
  List.IsChain.imp (fun _ _ hnext => Nat.le_trans hnext (Nat.add_le_add_left hgap _)) h

end Base.Periodic
