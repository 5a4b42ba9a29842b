import Mathlib.Logic.Function.Basic
import Waypoint.Base.Run

/-!
# Views that are published later

Callers change a shared store, then take a view of it, and publish that view at some later moment; a reader keeps what was published last.
-/

namespace Base

/-- Where a caller is: outside a call, past its change, or with a view to publish. -/
inductive Caller (ν : Type*)
  | idle
  | changed
  | holding (view : ν)

structure Published (σ ν : Type*) where
  store : σ
  callers : Nat → Caller ν
  latest : ν

namespace Published

variable {σ ν ω : Type*}

inductive Action (ω : Type*)
  | change (t : Nat) (x : ω)
  | take (t : Nat)
  | publish (t : Nat)

def init (view : σ → ν) (store : σ) : Published σ ν := ⟨store, fun _ => .idle, view store⟩

def setCaller (s : Published σ ν) (t : Nat) (c : Caller ν) : Published σ ν :=
  { s with callers := Function.update s.callers t c }

variable (apply : σ → ω → Option σ) (view : σ → ν)

/-- A change that is refused ends the call. -/
def next (s : Published σ ν) : Action ω → Option (Published σ ν)
  | .change t x =>
    match s.callers t with
    | .idle =>
      match apply s.store x with
      | none => some s
      | some store => some ({ s with store := store }.setCaller t .changed)
    | _ => none
  | .take t =>
    match s.callers t with
    | .changed => some (s.setCaller t (.holding (view s.store)))
    | _ => none
  | .publish t =>
    match s.callers t with
    | .holding v => some ({ s with latest := v }.setCaller t .idle)
    | _ => none

/-- The caller has yet to publish what is stored. -/
def Pending (s : Published σ ν) (t : Nat) : Prop := s.callers t = .changed ∨ s.callers t = .holding (view s.store)

def Fresh (s : Published σ ν) : Prop := s.latest = view s.store ∨ ∃ t, s.Pending view t

/-- Every call has returned. -/
def Quiet (s : Published σ ν) : Prop := ∀ t, s.callers t = .idle

/-- A view that the store has moved on from is published only while a newer one is still to come. -/
def Orderly (s : Published σ ν) : Action ω → Prop
  | .publish t => s.callers t = .holding (view s.store) ∨ ∃ t', t' ≠ t ∧ s.Pending view t'
  | _ => True

variable {apply view} {s s' : Published σ ν}

@[simp] theorem callers_setCaller_self (t : Nat) (c : Caller ν) : (s.setCaller t c).callers t = c :=
  Function.update_self ..

theorem fresh_init (store : σ) : (init view store).Fresh view := .inl rfl

theorem next_cases {a : Action ω} (h : s.next apply view a = some s') :
    (∃ t x, a = .change t x ∧ s.callers t = .idle ∧
      (apply s.store x = none ∧ s' = s ∨
        ∃ store, apply s.store x = some store ∧ s' = { s with store := store }.setCaller t .changed)) ∨
    (∃ t, a = .take t ∧ s.callers t = .changed ∧ s' = s.setCaller t (.holding (view s.store))) ∨
    ∃ t v, a = .publish t ∧ s.callers t = .holding v ∧ s' = { s with latest := v }.setCaller t .idle := by
  cases a with
  | change t x =>
    simp only [next] at h
    split at h
    · rename_i hidle
      refine .inl ⟨t, x, rfl, hidle, ?_⟩
      split at h
      · rename_i hrefused
        cases h
        exact .inl ⟨hrefused, rfl⟩
      · rename_i store hstore
        cases h
        exact .inr ⟨store, hstore, rfl⟩
    · cases h
  | take t =>
    simp only [next] at h
    split at h
    · rename_i hchanged
      cases h
      exact .inr (.inl ⟨t, rfl, hchanged, rfl⟩)
    · cases h
  | publish t =>
    simp only [next] at h
    split at h
    · rename_i v hholding
      cases h
      exact .inr (.inr ⟨t, v, rfl, hholding, rfl⟩)
    · cases h

/-- A publication leaves the reader in step, now or later, exactly if it is orderly. -/
theorem fresh_publish_iff {t : Nat} {v : ν} (h : s.callers t = .holding v) :
    Fresh view ({ s with latest := v }.setCaller t .idle) ↔ Orderly view s (.publish t : Action ω) := by
  rw [Fresh, Orderly, h, Caller.holding.injEq]
  refine or_congr Iff.rfl (exists_congr fun t' => ?_)
  rw [Pending, Pending]
  by_cases ht : t' = t
  · subst ht
    simp
  · simp [ht, setCaller]

theorem fresh_next {a : Action ω} (hfresh : s.Fresh view) (hok : Orderly view s a) (h : s.next apply view a = some s') :
    s'.Fresh view := by
  obtain ⟨t, x, rfl, -, ⟨-, rfl⟩ | ⟨store, -, rfl⟩⟩ | ⟨t, rfl, -, rfl⟩ | ⟨t, v, rfl, hholding, rfl⟩ := next_cases h
  · exact hfresh
  · exact .inr ⟨t, .inl (callers_setCaller_self ..)⟩
  · exact .inr ⟨t, .inr (callers_setCaller_self ..)⟩
  · exact (fresh_publish_iff hholding).mpr hok

theorem latest_of_quiet (hfresh : s.Fresh view) (hquiet : s.Quiet) : s.latest = view s.store := by
  obtain hlatest | ⟨t, hpending | hpending⟩ := hfresh
  · exact hlatest
  · rw [hquiet t] at hpending
    cases hpending
  · rw [hquiet t] at hpending
    cases hpending

/-- After an orderly run the reader has the store's view once every call has returned. -/
theorem latest_of_orderly {es : List (Action ω)} (hinit : s.Fresh view)
    (hrun : Run (Guarded (Orderly view) (Takes (next apply view))) s es s') (hquiet : s'.Quiet) :
    s'.latest = view s'.store :=
  latest_of_quiet (hrun.invariant _ (fun _ _ _ hfresh hstep => fresh_next hfresh hstep.1 hstep.2) hinit) hquiet

end Published

end Base
