import Mathlib.Data.List.Induction
import Mathlib.Logic.Relation

/-!
# Runs of a labelled step relation

A system is a relation `step s e t`: from state `s` the action `e` may lead to `t`. A run carries the list of its actions, so that a statement about every interleaving is one about every run.
-/

namespace Base

variable {σ ε : Type*}

/-- The states and actions of a system, connected by its steps. -/
inductive Run (step : σ → ε → σ → Prop) : σ → List ε → σ → Prop
  | nil (s : σ) : Run step s [] s
  | cons {s m t : σ} {e : ε} {es : List ε} (first : step s e m) (rest : Run step m es t) : Run step s (e :: es) t

/-- A step that is taken only where the guard holds. -/
def Guarded (ok : σ → ε → Prop) (step : σ → ε → σ → Prop) (s : σ) (e : ε) (t : σ) : Prop :=
  ok s e ∧ step s e t

def Takes (next : σ → ε → Option σ) (s : σ) (e : ε) (t : σ) : Prop := next s e = some t

/-- Every run of a machine is an execution of it, and can be found by running it. -/
theorem run_takes_iff {next : σ → ε → Option σ} {s t : σ} {es : List ε} :
    Run (Takes next) s es t ↔ es.foldlM next s = some t := by
  induction es generalizing s with
  | nil =>
    refine ⟨fun h => ?_, fun h => ?_⟩
    · cases h
      rfl
    · cases h
      exact .nil _
  | cons e es ih =>
    rw [List.foldlM_cons]
    refine ⟨fun h => ?_, fun h => ?_⟩
    · cases h with
      | cons hfirst hrest =>
        rw [show next s e = some _ from hfirst]
        exact ih.mp hrest
    · obtain ⟨m, hfirst, hrest⟩ := Option.bind_eq_some_iff.mp h
      exact .cons hfirst (ih.mpr hrest)

theorem run_guarded_iff {ok : σ → ε → Prop} [∀ s e, Decidable (ok s e)] {next : σ → ε → Option σ} {s t : σ}
    {es : List ε} :
    Run (Guarded ok (Takes next)) s es t ↔ es.foldlM (fun s e => if ok s e then next s e else none) s = some t := by
  rw [← run_takes_iff]
  suffices hsteps : Guarded ok (Takes next) = Takes fun s e => if ok s e then next s e else none by rw [hsteps]
  funext s e t
  by_cases hok : ok s e <;> simp [Guarded, Takes, hok]

theorem run_guarded_foldl {ok : σ → ε → Prop} (f : σ → ε → σ) {es : List ε} (hok : ∀ e ∈ es, ∀ s, ok s e) (s : σ) :
    Run (Guarded ok (Takes fun s e => some (f s e))) s es (es.foldl f s) := by
  induction es generalizing s with
  | nil => exact .nil s
  | cons e es ih =>
    rw [List.forall_mem_cons] at hok
    exact .cons ⟨hok.1 s, rfl⟩ (ih hok.2 (f s e))

namespace Run

variable {step : σ → ε → σ → Prop} {s m t : σ} {es fs : List ε}

theorem append (hfirst : Run step s es m) (hsecond : Run step m fs t) : Run step s (es ++ fs) t := by
  induction hfirst with
  | nil s => exact hsecond
  | cons hstep _ ih => exact .cons hstep (ih hsecond)

theorem of_append (h : Run step s (es ++ fs) t) : ∃ m, Run step s es m ∧ Run step m fs t := by
  induction es generalizing s with
  | nil => exact ⟨s, .nil s, h⟩
  | cons e es ih =>
    cases h with
    | cons hstep hrest =>
      obtain ⟨m, hleft, hright⟩ := ih hrest
      exact ⟨m, .cons hstep hleft, hright⟩

theorem invariant (inv : σ → Prop) (hstep : ∀ s e t, inv s → step s e t → inv t)
    (hrun : Run step s es t) (hinit : inv s) : inv t := by
  induction hrun with
  | nil s => exact hinit
  | cons hfirst _ ih => exact ih (hstep _ _ _ hinit hfirst)

theorem invariant_of_allowed {inv : σ → Prop} (allowed : ε → Prop)
    (hstep : ∀ s e t, allowed e → inv s → step s e t → inv t)
    (hrun : Run step s es t) (hallowed : ∀ e ∈ es, allowed e) (hinit : inv s) : inv t := by
  induction hrun with
  | nil s => exact hinit
  | cons hfirst _ ih =>
    exact ih (fun e he => hallowed e (List.mem_cons_of_mem _ he))
      (hstep _ _ _ (hallowed _ List.mem_cons_self) hinit hfirst)

theorem unguard {ok : σ → ε → Prop} (hrun : Run (Guarded ok step) s es t) : Run step s es t := by
  induction hrun with
  | nil s => exact .nil s
  | cons hfirst _ ih => exact .cons hfirst.2 ih

end Run

/-- Where the guard is exactly what keeps a machine good, a run is guarded if and only if every state on its way is good. -/
theorem run_guarded_iff_good {next : σ → ε → Option σ} {ok : σ → ε → Prop} {inv good : σ → Prop}
    (hkeep : ∀ s e t, inv s → ok s e → next s e = some t → inv t) (hgood : ∀ s, inv s → good s)
    (hbad : ∀ s e t, inv s → ¬ok s e → next s e = some t → ¬good t) {s t : σ} {es : List ε} (hinit : inv s)
    (hrun : Run (Takes next) s es t) :
    Run (Guarded ok (Takes next)) s es t ↔ ∀ before m, before <+: es → Run (Takes next) s before m → good m := by
  induction hrun with
  | nil s =>
    refine ⟨fun _ before m hbefore hm => ?_, fun _ => .nil s⟩
    rw [List.prefix_nil.mp hbefore] at hm
    cases hm
    exact hgood s hinit
  | @cons s mid t e es hfirst hrest ih =>
    constructor
    · intro hguarded before m hbefore hm
      cases hguarded with
      | cons hstep hguarded =>
        cases hm with
        | nil => exact hgood s hinit
        | cons hstep' hm =>
          obtain ⟨rfl, hshorter⟩ := List.cons_prefix_cons.mp hbefore
          cases hfirst.symm.trans hstep.2
          cases hfirst.symm.trans hstep'
          exact (ih (hkeep _ _ _ hinit hstep.1 hfirst)).mp hguarded _ m hshorter hm
    · intro hall
      have hok : ok s e := by
        by_contra hnot
        exact hbad s e mid hinit hnot hfirst (hall [e] mid (List.prefix_append [e] es) (.cons hfirst (.nil mid)))
      refine .cons ⟨hok, hfirst⟩ ((ih (hkeep _ _ _ hinit hok hfirst)).mpr fun before m hbefore hm => ?_)
      exact hall (e :: before) m (List.cons_prefix_cons.mpr ⟨rfl, hbefore⟩) (.cons hfirst hm)

theorem run_foldl (f : σ → ε → σ) (es : List ε) (s : σ) : Run (Takes fun s e => some (f s e)) s es (es.foldl f s) :=
  have hrun : Run (Guarded (fun _ _ => True) (Takes fun s e => some (f s e))) s es (es.foldl f s) :=
    run_guarded_foldl f (fun _ _ _ => trivial) s
  hrun.unguard

/-- The condition holds at each state that the events lead to. -/
def Along (f : σ → ε → σ) (P : σ → ε → Prop) : σ → List ε → Prop
  | _, [] => True
  | s, e :: es => P s e ∧ Along f P (f s e) es

section Along

variable {f : σ → ε → σ} {P Q : σ → ε → Prop} {s : σ} {e : ε} {es : List ε}

instance [∀ s e, Decidable (P s e)] (s : σ) (es : List ε) : Decidable (Along f P s es) := by
  induction es generalizing s with
  | nil => exact .isTrue trivial
  | cons e es ih =>
    have := ih (f s e)
    exact inferInstanceAs (Decidable (P s e ∧ Along f P (f s e) es))

@[simp] theorem along_nil : Along f P s [] := trivial

@[simp] theorem along_cons : Along f P s (e :: es) ↔ P s e ∧ Along f P (f s e) es := Iff.rfl

theorem along_iff : Along f P s es ↔ ∀ before e, before ++ [e] <+: es → P (before.foldl f s) e := by
  induction es generalizing s with
  | nil => simp
  | cons e es ih =>
    rw [along_cons, ih]
    constructor
    · rintro ⟨hfirst, hrest⟩ before e' hbefore
      cases before with
      | nil =>
        obtain ⟨rfl, -⟩ := List.cons_prefix_cons.mp hbefore
        exact hfirst
      | cons b before =>
        obtain ⟨rfl, hshorter⟩ := List.cons_prefix_cons.mp hbefore
        exact hrest before e' hshorter
    · intro h
      refine ⟨h [] e (by simp), fun before e' hbefore => ?_⟩
      exact h (e :: before) e' (List.cons_prefix_cons.mpr ⟨rfl, hbefore⟩)

theorem along_append {es' : List ε} : Along f P s (es ++ es') ↔ Along f P s es ∧ Along f P (es.foldl f s) es' := by
  induction es generalizing s with
  | nil => simp
  | cons e es ih => rw [List.cons_append, along_cons, ih, along_cons, List.foldl_cons, and_assoc]

theorem Along.mono (hPQ : ∀ s e, P s e → Q s e) (h : Along f P s es) : Along f Q s es := by
  rw [along_iff] at h ⊢
  exact fun before e hbefore => hPQ _ _ (h before e hbefore)

theorem along_congr (hPQ : ∀ s e, P s e ↔ Q s e) : Along f P s es ↔ Along f Q s es :=
  ⟨Along.mono fun s e => (hPQ s e).mp, Along.mono fun s e => (hPQ s e).mpr⟩

theorem Along.invariant (inv : σ → Prop) (hstep : ∀ s e, inv s → P s e → inv (f s e)) (h : Along f P s es)
    (hinit : inv s) : inv (es.foldl f s) := by
  induction es generalizing s with
  | nil => exact hinit
  | cons e es ih => exact ih h.2 (hstep s e hinit h.1)

theorem Along.descends {rank : σ → Nat} {counted : ε → Bool} {d : Nat}
    (hstep : ∀ s e, P s e → rank (f s e) + (if counted e then d else 0) ≤ rank s) (h : Along f P s es) :
    rank (es.foldl f s) + d * es.countP counted ≤ rank s := by
  induction es generalizing s with
  | nil => simp
  | cons e es ih =>
    have hfirst := hstep s e h.1
    have hrest := ih h.2
    rw [List.foldl_cons, List.countP_cons, Nat.mul_add]
    by_cases hcounted : counted e = true
    · rw [if_pos hcounted] at hfirst ⊢
      omega
    · rw [if_neg hcounted] at hfirst ⊢
      omega

/-- Where the condition is exactly what keeps a state good, as long as the surroundings behave, it holds along a run
if and only if the run passes through good states only. -/
theorem along_iff_good_of (good : σ → Prop) (hQ : Along f Q s es)
    (hstep : ∀ s e, Q s e → good s → (P s e ↔ good (f s e))) (hinit : good s) :
    Along f P s es ↔ ∀ before, before <+: es → good (before.foldl f s) := by
  induction es generalizing s with
  | nil => simp [hinit]
  | cons e es ih =>
    rw [along_cons, hstep s e hQ.1 hinit]
    constructor
    · rintro ⟨hfirst, hrest⟩ before hbefore
      cases before with
      | nil => exact hinit
      | cons b before =>
        obtain ⟨rfl, hshorter⟩ := List.cons_prefix_cons.mp hbefore
        exact (ih hQ.2 hfirst).mp hrest before hshorter
    · intro h
      have hfirst : good (f s e) := h [e] (by simp)
      refine ⟨hfirst, (ih hQ.2 hfirst).mpr fun before hbefore => ?_⟩
      exact h (e :: before) (List.cons_prefix_cons.mpr ⟨rfl, hbefore⟩)

theorem along_mem : Along f (fun _ e => e ∈ es) s es :=
  along_iff.mpr fun _ _ hbefore => hbefore.subset (List.mem_append_right _ (List.mem_singleton_self _))

theorem along_iff_good {good : σ → Prop} (hstep : ∀ s, ∀ e ∈ es, good s → (P s e ↔ good (f s e))) (hinit : good s) :
    Along f P s es ↔ ∀ before, before <+: es → good (before.foldl f s) :=
  along_iff_good_of good along_mem (fun s e he => hstep s e he) hinit

/-- A fact about a key that, once true, stays true until an action resets the key. -/
def Persists {κ : Type*} (f : σ → ε → σ) (holds : σ → κ → Prop) (resets : ε → κ → Prop) (s : σ) (es : List ε) : Prop :=
  ∀ before mid, before ++ mid <+: es → ∀ k, holds (before.foldl f s) k → (∀ e ∈ mid, ¬resets e k) →
    holds ((before ++ mid).foldl f s) k

theorem persists_iff {κ : Type*} {holds : σ → κ → Prop} {resets : ε → κ → Prop} :
    Persists f holds resets s es ↔
      Along f (fun s e => ∀ k, holds s k → ¬resets e k → holds (f s e) k) s es := by
  rw [along_iff]
  constructor
  · intro h before e hbefore k hk hreset
    have hnext := h before [e] hbefore k hk (by simpa using hreset)
    rwa [List.foldl_append] at hnext
  intro h before mid
  induction mid using List.reverseRecOn with
  | nil => simp
  | append_singleton mid e ih =>
    intro hbefore k hk hmid
    rw [← List.append_assoc] at hbefore ⊢
    have hshorter : before ++ mid <+: es := (List.prefix_append _ _).trans hbefore
    have hlast := ih hshorter k hk fun e he => hmid e (List.mem_append_left _ he)
    rw [List.foldl_append]
    exact h (before ++ mid) e hbefore k hlast (hmid e (by simp))

end Along

end Base
