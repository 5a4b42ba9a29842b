import Mathlib.Control.Monad.Basic
import Mathlib.Data.List.Forall2

/-!
# Programs that may fail

What a success of an `Except` program says: every part of it succeeded. A validator is such a program, so the facts its checks establish are read off one bind and one guard at a time.
-/

namespace Base

variable {ε α β : Type}

theorem bind_eq_ok {x : Except ε α} {f : α → Except ε β} {b : β} :
    (x >>= f) = .ok b ↔ ∃ a, x = .ok a ∧ f a = .ok b := by
  cases x with
  | error e => simp [bind, Except.bind]
  | ok a => simp [bind, Except.bind]

variable {c : Prop} {u : Unit}

theorem ite_error_eq_ok [Decidable c] {e : ε} {x : Except ε α} {a : α} :
    (if c then .error e else x) = .ok a ↔ ¬ c ∧ x = .ok a := by
  by_cases hc : c
  · simp [hc]
  · simp [hc]

def require (c : Prop) [Decidable c] (err : ε) : Except ε Unit := if c then .ok () else .error err

theorem require_eq_ok [Decidable c] {err : ε} : require c err = .ok u ↔ c := by
  by_cases hc : c <;> simp [require, hc]

def checkAll (test : α → Bool) (err : α → ε) : List α → Except ε Unit
  | [] => .ok ()
  | x :: xs => if test x then checkAll test err xs else .error (err x)

theorem checkAll_eq_ok {test : α → Bool} {err : α → ε} {xs : List α} :
    checkAll test err xs = .ok u ↔ ∀ x ∈ xs, test x = true := by
  induction xs with
  | nil => simp [checkAll]
  | cons x xs ih =>
    rw [checkAll, List.forall_mem_cons, ← ih]
    by_cases hx : test x = true <;> simp [hx]

theorem forM_eq_ok {f : α → Except ε Unit} {xs : List α} :
    xs.forM f = .ok u ↔ ∀ x ∈ xs, f x = .ok () := by
  induction xs with
  | nil => exact ⟨fun _ x hx => (by cases hx), fun _ => rfl⟩
  | cons x xs ih =>
    rw [show (x :: xs).forM f = (f x >>= fun _ => xs.forM f) from rfl, bind_eq_ok, List.forall_mem_cons]
    exact ⟨fun ⟨_, hx, hrest⟩ => ⟨hx, ih.mp hrest⟩, fun ⟨hx, hrest⟩ => ⟨⟨⟩, hx, ih.mpr hrest⟩⟩

theorem foldlM_collect {step : List α → α → Except ε (List α)}
    (hstep : ∀ seen a out, step seen a = .ok out → out = seen ++ [a]) {xs seen out : List α}
    (h : xs.foldlM step seen = .ok out) : out = seen ++ xs := by
  induction xs generalizing seen with
  | nil =>
    cases h
    exact (List.append_nil _).symm
  | cons x xs ih =>
    rw [List.foldlM_cons, bind_eq_ok] at h
    obtain ⟨mid, hx, hrest⟩ := h
    rw [ih hrest, hstep seen x mid hx, List.append_assoc]
    rfl

theorem foldlM_invariant (inv : β → Prop) {step : β → α → Except ε β}
    (hstep : ∀ b a b', inv b → step b a = .ok b' → inv b') (xs : List α) {b out : β} (hb : inv b)
    (h : xs.foldlM step b = .ok out) : inv out := by
  induction xs generalizing b with
  | nil =>
    cases h
    exact hb
  | cons x xs ih =>
    rw [List.foldlM_cons, bind_eq_ok] at h
    obtain ⟨b', hx, hrest⟩ := h
    exact ih (hstep b x b' hb hx) hrest

theorem mapM_eq_some {f : α → Option β} {xs : List α} {ys : List β} :
    xs.mapM f = some ys ↔ List.Forall₂ (fun x y => f x = some y) xs ys := by
  induction xs generalizing ys with
  | nil =>
    rw [List.mapM_nil, List.forall₂_nil_left_iff]
    exact ⟨fun h => (Option.some.inj h).symm, fun h => congrArg some h.symm⟩
  | cons x xs ih =>
    simp only [List.mapM_cons, Option.bind_eq_bind, Option.bind_eq_some_iff, List.forall₂_cons_left_iff, ih]
    constructor
    · rintro ⟨y, hy, ys', hys', hout⟩
      exact ⟨y, ys', hy, hys', (Option.some.inj hout).symm⟩
    · rintro ⟨y, ys', hy, hys', rfl⟩
      exact ⟨y, hy, ys', hys', rfl⟩

theorem exists_of_forall₂ {R : α → β → Prop} {xs : List α} {ys : List β} (h : List.Forall₂ R xs ys) {x : α} (hx : x ∈ xs) :
    ∃ y ∈ ys, R x y := by
  induction h with
  | nil => cases hx
  | cons hxy _ ih =>
    rcases List.mem_cons.mp hx with rfl | hx
    · exact ⟨_, List.mem_cons_self, hxy⟩
    · obtain ⟨y, hy, hxy⟩ := ih hx
      exact ⟨y, List.mem_cons_of_mem _ hy, hxy⟩

theorem toOption_eq_some {x : Except ε α} {a : α} : x.toOption = some a ↔ x = .ok a := by
  cases x with
  | error e => exact ⟨fun h => (by cases h), fun h => (by cases h)⟩
  | ok b => exact ⟨fun h => (by cases h; rfl), fun h => (by cases h; rfl)⟩

theorem mapError_eq_ok {ε' : Type} {x : Except ε α} {f : ε → ε'} {a : α} : x.mapError f = .ok a ↔ x = .ok a := by
  cases x with
  | error e => exact ⟨fun h => (by cases h), fun h => (by cases h)⟩
  | ok b => exact ⟨fun h => (by cases h; rfl), fun h => (by cases h; rfl)⟩

end Base
