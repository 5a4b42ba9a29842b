import Mathlib.Data.List.Basic

/-!
# Work under a lock that is opened and closed

A trace of events, some of which open or close the lock of a key, and some of which are work that needs it open.
-/

namespace Base

variable {ε κ : Type*}

/-- What an event does to the lock of a key: `some true` closes it, `some false` opens it. -/
structure LockUse (ε κ : Type*) where
  sets : ε → κ → Option Bool
  works : ε → κ → Prop

namespace LockUse

variable (u : LockUse ε κ)

def last (es : List ε) (k : κ) : Option Bool := (es.filterMap (u.sets · k)).getLast?

/-- Work is done after an opening and before a closing, and what is opened is closed. -/
structure Bracketed (es : List ε) : Prop where
  inside : ∀ before e rest, es = before ++ e :: rest → ∀ k, u.works e k →
    u.last before k = some false ∧ ∃ c ∈ rest, u.sets c k = some true
  closed : ∀ k, u.last es k ≠ some false

variable {u} {es fs : List ε} {k : κ}

theorem last_append : u.last (es ++ fs) k = (u.last fs k).or (u.last es k) := by
  rw [last, List.filterMap_append, List.getLast?_append]
  rfl

theorem last_of_idle (h : ∀ e ∈ es, u.sets e k = none) : u.last es k = none := by
  have hnone : es.filterMap (u.sets · k) = [] := List.filterMap_eq_nil_iff.mpr h
  rw [last, hnone, List.getLast?_nil]

theorem bracketed_of_idle (hworks : ∀ e ∈ es, ∀ k, ¬u.works e k) (hsets : ∀ e ∈ es, ∀ k, u.sets e k = none) :
    u.Bracketed es where
  inside before e rest hes k hwork := absurd hwork (hworks e (hes ▸ List.mem_append_right _ List.mem_cons_self) k)
  closed k := by
    rw [last_of_idle fun e he => hsets e he k]
    exact (Option.some_ne_none false).symm

theorem Bracketed.append (hes : u.Bracketed es) (hfs : u.Bracketed fs) : u.Bracketed (es ++ fs) where
  inside before e rest hsplit k hwork := by
    rcases List.append_eq_append_iff.mp hsplit with ⟨mid, rfl, hmid⟩ | ⟨mid, rfl, hmid⟩
    · -- the work is in the second trace
      obtain ⟨hopen, hclose⟩ := hfs.inside mid e rest hmid k hwork
      exact ⟨by rw [last_append, hopen]; rfl, hclose⟩
    cases mid with
    | nil =>
      obtain ⟨hopen, hclose⟩ := hfs.inside [] e rest hmid.symm k hwork
      cases hopen
    | cons e' mid =>
      obtain ⟨rfl, rfl⟩ := List.cons_eq_cons.mp hmid
      obtain ⟨hopen, c, hc, hset⟩ := hes.inside before e mid rfl k hwork
      exact ⟨hopen, c, List.mem_append_left _ hc, hset⟩
  closed k := by
    rw [last_append]
    cases hlast : u.last fs k with
    | none => exact hes.closed k
    | some locked =>
      have hclosed := hfs.closed k
      rw [hlast] at hclosed
      exact hclosed

/-- A session: the lock of one key opened, work on that key, and the lock closed. -/
theorem bracketed_session [DecidableEq κ] (key : κ) {o c : ε} {body : List ε}
    (hopen : ∀ k, u.sets o k = if k = key then some false else none)
    (hclose : ∀ k, u.sets c k = if k = key then some true else none)
    (houter : ∀ k, ¬u.works o k ∧ ¬u.works c k)
    (hbody : ∀ e ∈ body, ∀ k, u.sets e k = none ∧ (u.works e k → k = key)) :
    u.Bracketed (o :: body ++ [c]) where
  inside before e rest hsplit k hwork := by
    cases before with
    | nil =>
      obtain ⟨rfl, -⟩ := List.cons_eq_cons.mp hsplit
      exact absurd hwork (houter k).1
    | cons o' before =>
      rw [List.cons_append, List.cons_append] at hsplit
      obtain ⟨rfl, hinner⟩ := List.cons_eq_cons.mp hsplit
      rcases List.eq_nil_or_concat rest with rfl | ⟨rest, c', rfl⟩
      · obtain ⟨-, hlast⟩ := List.append_inj' hinner rfl
        obtain ⟨rfl, -⟩ := List.cons_eq_cons.mp hlast
        exact absurd hwork (houter k).2
      rw [List.concat_eq_append, ← List.cons_append, ← List.append_assoc] at hinner
      obtain ⟨rfl, hlast⟩ := List.append_inj' hinner rfl
      obtain ⟨rfl, -⟩ := List.cons_eq_cons.mp hlast
      obtain rfl := (hbody e (by simp) k).2 hwork
      refine ⟨?_, c, by simp, by rw [hclose, if_pos rfl]⟩
      have hidle : u.last before k = none :=
        last_of_idle fun e' he' => (hbody e' (List.mem_append_left _ he') k).1
      rw [show o :: before = [o] ++ before from rfl, last_append, hidle, last]
      simp [hopen]
  closed k := by
    rw [last_append]
    by_cases hkey : k = key
    · have hlast : u.last [c] k = some true := by simp [last, hclose, hkey]
      rw [hlast]
      simp
    have hidle : u.last (o :: body ++ [c]) k = none := by
      refine last_of_idle fun e he => ?_
      rcases List.mem_append.mp he with he | he
      · rcases List.mem_cons.mp he with rfl | he
        · rw [hopen, if_neg hkey]
        · exact (hbody e he k).1
      · rw [List.mem_singleton.mp he, hclose, if_neg hkey]
    rw [← last_append, hidle]
    exact (Option.some_ne_none false).symm

end LockUse

end Base
