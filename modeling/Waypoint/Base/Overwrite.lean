import Mathlib.Data.List.Induction
import Mathlib.Data.List.Perm.Basic
import Mathlib.Logic.Function.Basic

/-!
# A map written entry by entry

A loop writes the value of each item under the item's key, and a later item overwrites an earlier one of the same key.
-/

namespace Base

variable {α κ ν : Type*} [DecidableEq κ] (key : α → κ) (value : α → ν)

def written (l : List α) : κ → Option ν := l.foldl (fun m a => Function.update m (key a) (some (value a))) fun _ => none

/-- Entries with one key agree. -/
def Consistent (l : List α) : Prop := ∀ a ∈ l, ∀ b ∈ l, key a = key b → value a = value b

variable {key value} {l l' : List α} {k : κ} {v : ν} {a : α}

theorem written_concat (l : List α) (a : α) :
    written key value (l ++ [a]) = Function.update (written key value l) (key a) (some (value a)) :=
  List.foldl_concat _ _ a l

theorem written_concat_self (l : List α) (a : α) : written key value (l ++ [a]) (key a) = some (value a) := by
  rw [written_concat, Function.update_self]

theorem mem_of_written (h : written key value l k = some v) : ∃ a ∈ l, key a = k ∧ value a = v := by
  induction l using List.reverseRecOn with
  | nil => cases h
  | append_singleton l a ih =>
    by_cases hk : k = key a
    · rw [hk, written_concat_self] at h
      exact ⟨a, List.mem_append_right _ List.mem_cons_self, hk.symm, Option.some.inj h⟩
    · rw [written_concat, Function.update_of_ne hk] at h
      obtain ⟨b, hb, hkey⟩ := ih h
      exact ⟨b, List.mem_append_left _ hb, hkey⟩

theorem written_ne_none (ha : a ∈ l) : written key value l (key a) ≠ none := by
  induction l using List.reverseRecOn with
  | nil => cases ha
  | append_singleton l b ih =>
    by_cases hk : key a = key b
    · rw [hk, written_concat_self]
      exact Option.some_ne_none _
    · rw [written_concat, Function.update_of_ne hk]
      refine ih ((List.mem_append.mp ha).resolve_right fun hb => hk ?_)
      rw [List.mem_singleton.mp hb]

theorem Consistent.written_eq (h : Consistent key value l) (ha : a ∈ l) : written key value l (key a) = some (value a) := by
  obtain ⟨v, hv⟩ : ∃ v, written key value l (key a) = some v := Option.ne_none_iff_exists'.mp (written_ne_none ha)
  obtain ⟨b, hb, hkey, rfl⟩ := mem_of_written hv
  rw [hv, h b hb a ha hkey]

omit [DecidableEq κ] in
theorem Consistent.perm (h : Consistent key value l) (hperm : l'.Perm l) : Consistent key value l' :=
  fun a ha b hb => h a (hperm.mem_iff.mp ha) b (hperm.mem_iff.mp hb)

theorem Consistent.written_perm (h : Consistent key value l) (hperm : l'.Perm l) :
    written key value l' = written key value l := by
  funext k
  cases hk : written key value l k with
  | some v =>
    obtain ⟨a, ha, rfl, rfl⟩ := mem_of_written hk
    exact (h.perm hperm).written_eq (hperm.mem_iff.mpr ha)
  | none =>
    by_contra hsome
    obtain ⟨v, hv⟩ := Option.ne_none_iff_exists'.mp hsome
    obtain ⟨a, ha, rfl, -⟩ := mem_of_written hv
    exact written_ne_none (hperm.mem_iff.mp ha) hk

theorem perm_concat_of_mem (ha : a ∈ l) : ∃ s, (s ++ [a]).Perm l := by
  obtain ⟨s, t, rfl⟩ := List.append_of_mem ha
  refine ⟨s ++ t, ?_⟩
  rw [List.append_assoc]
  exact (List.perm_append_singleton a t).append_left s

theorem written_perm_iff :
    (∃ m, ∀ l', l'.Perm l → written key value l' = m) ↔ Consistent key value l := by
  constructor
  · rintro ⟨m, hm⟩ a ha b hb hkey
    obtain ⟨s, hs⟩ := perm_concat_of_mem ha
    obtain ⟨t, ht⟩ := perm_concat_of_mem hb
    have hlast : written key value (s ++ [a]) (key a) = written key value (t ++ [b]) (key b) := by
      rw [hm _ hs, hm _ ht, hkey]
    rw [written_concat_self, written_concat_self] at hlast
    exact Option.some.inj hlast
  · exact fun h => ⟨written key value l, fun l' hperm => h.written_perm hperm⟩

end Base
