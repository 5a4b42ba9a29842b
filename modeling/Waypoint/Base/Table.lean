import Mathlib.Data.List.AList

/-!
# Tables with a primary key

A table of a relational store is a list of rows under distinct keys: Mathlib's `AList` at a constant type of rows.
-/

namespace Base

abbrev Table (κ ρ : Type*) := AList fun _ : κ => ρ

namespace Table

variable {κ ρ : Type*} [DecidableEq κ]

def update (k : κ) (f : ρ → ρ) (t : Table κ ρ) : Table κ ρ :=
  match t.lookup k with
  | none => t
  | some r => t.insert k (f r)

/-- `INSERT … ON CONFLICT DO NOTHING` -/
def insertOrIgnore (k : κ) (r : ρ) (t : Table κ ρ) : Table κ ρ :=
  match t.lookup k with
  | none => t.insert k r
  | some _ => t

@[simp] theorem lookup_update_self (t : Table κ ρ) (k : κ) (f : ρ → ρ) :
    (t.update k f).lookup k = (t.lookup k).map f := by
  unfold update
  cases hk : t.lookup k with
  | none => exact hk
  | some r => exact AList.lookup_insert t

theorem lookup_update_of_ne (t : Table κ ρ) {k j : κ} (hj : j ≠ k) (f : ρ → ρ) :
    (t.update k f).lookup j = t.lookup j := by
  unfold update
  cases t.lookup k with
  | none => rfl
  | some r => exact AList.lookup_insert_ne hj

theorem update_of_not_mem {t : Table κ ρ} {k : κ} (hk : k ∉ t) (f : ρ → ρ) : t.update k f = t := by
  rw [update, AList.lookup_eq_none.mpr hk]

theorem lookup_insertOrIgnore {t : Table κ ρ} {k j : κ} {r x : ρ} (h : (t.insertOrIgnore k r).lookup j = some x) :
    t.lookup j = some x ∨ j = k ∧ x = r := by
  unfold insertOrIgnore at h
  cases hk : t.lookup k with
  | some old =>
    rw [hk] at h
    exact .inl h
  | none =>
    rw [hk] at h
    by_cases hj : j = k
    · subst hj
      rw [AList.lookup_insert] at h
      exact .inr ⟨rfl, (Option.some.inj h).symm⟩
    · rw [AList.lookup_insert_ne hj] at h
      exact .inl h

theorem entries_insertOrIgnore_of_not_mem {t : Table κ ρ} {k : κ} (hk : k ∉ t) (r : ρ) :
    (t.insertOrIgnore k r).entries = ⟨k, r⟩ :: t.entries := by
  rw [insertOrIgnore, AList.lookup_eq_none.mpr hk]
  exact AList.entries_insert_of_notMem hk

theorem insertOrIgnore_of_mem {t : Table κ ρ} {k : κ} (hk : k ∈ t) (r : ρ) : t.insertOrIgnore k r = t := by
  obtain ⟨old, hold⟩ := Option.isSome_iff_exists.mp (AList.lookup_isSome.mpr hk)
  rw [insertOrIgnore, hold]

theorem mem_entries_iff {t : Table κ ρ} {k : κ} {r : ρ} : (⟨k, r⟩ : Sigma fun _ => ρ) ∈ t.entries ↔ t.lookup k = some r :=
  AList.mem_lookup_iff.symm

end Table

theorem lookup_eq_some_iff_mem {κ ρ : Type*} [BEq κ] [LawfulBEq κ] {l : List (κ × ρ)} (hkeys : (l.map Prod.fst).Nodup)
    {k : κ} {r : ρ} : l.lookup k = some r ↔ (k, r) ∈ l := by
  induction l with
  | nil => simp
  | cons e l ih =>
    rw [List.map_cons, List.nodup_cons] at hkeys
    rw [List.lookup_cons, List.mem_cons]
    by_cases hk : k = e.1
    · rw [beq_iff_eq.mpr hk]
      constructor
      · intro h
        cases h
        exact .inl (Prod.ext hk rfl)
      · rintro (rfl | hmem)
        · rfl
        · exact absurd (hk ▸ List.mem_map.mpr ⟨_, hmem, rfl⟩) hkeys.1
    · rw [beq_false_of_ne hk, ih hkeys.2]
      refine ⟨.inr, fun h => h.resolve_left ?_⟩
      rintro rfl
      exact hk rfl

end Base
