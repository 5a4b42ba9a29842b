import Mathlib.Control.Monad.Basic
import Mathlib.Order.Defs.Unbundled

/-!
# State programs that move the state only along a preorder

Frame conditions of stateful programs. `Keeps r p` says that the program `p` takes every state to a state above it in the preorder `r`.
-/

namespace Base

variable {σ α β : Type}

/-- The program relates every state to the state it ends in. -/
def Keeps (r : σ → σ → Prop) (p : StateM σ α) : Prop := ∀ s, r s (p.run s).2

section Rules

variable {r : σ → σ → Prop}

theorem keeps_pure [Std.Refl r] (a : α) : Keeps r (pure a : StateM σ α) :=
  fun s => refl_of r s

theorem keeps_bind [IsTrans σ r] {p : StateM σ α} {k : α → StateM σ β}
    (hp : Keeps r p) (hk : ∀ a, Keeps r (k a)) : Keeps r (p >>= k) := by
  intro s
  rw [StateT.run_bind]
  exact trans_of r (hp s) (hk _ _)

theorem keeps_forM [Std.Refl r] [IsTrans σ r] {p : α → StateM σ PUnit} (xs : List α)
    (hp : ∀ a ∈ xs, Keeps r (p a)) : Keeps r (forM xs p) := by
  induction xs with
  | nil => exact keeps_pure _
  | cons x xs ih =>
    rw [List.forM_cons]
    exact keeps_bind (hp x List.mem_cons_self)
      fun _ => ih fun a ha => hp a (List.mem_cons_of_mem _ ha)

end Rules

def Ends (pre : σ → Prop) (p : StateM σ α) (post : α → σ → Prop) : Prop :=
  ∀ s, pre s → post (p.run s).1 (p.run s).2

theorem ends_pure {pre : σ → Prop} {post : α → σ → Prop} {a : α} (h : ∀ s, pre s → post a s) :
    Ends pre (pure a : StateM σ α) post :=
  fun s hs => h s hs

theorem ends_bind {pre : σ → Prop} {mid : α → σ → Prop} {post : β → σ → Prop} {p : StateM σ α} {k : α → StateM σ β}
    (hp : Ends pre p mid) (hk : ∀ a, Ends (mid a) (k a) post) : Ends pre (p >>= k) post := by
  intro s hs
  rw [StateT.run_bind]
  exact hk _ _ (hp s hs)

theorem ends_bind_eq {pre mid : σ → Prop} {post : β → σ → Prop} {a : α} {p : StateM σ α} {k : α → StateM σ β}
    (hp : Ends pre p fun b s => b = a ∧ mid s) (hk : Ends mid (k a) post) : Ends pre (p >>= k) post := by
  refine ends_bind hp fun b s hs => ?_
  rw [hs.1]
  exact hk s hs.2

variable {ε : Type}

def attempt (p : ExceptT ε (StateM σ) α) : ExceptT ε (StateM σ) (Except ε α) := ExceptT.mk (do return .ok (← p.run))

def wrapError (f : ε → ε) (p : ExceptT ε (StateM σ) α) : ExceptT ε (StateM σ) α :=
  ExceptT.mk (do return (← p.run).mapError f)

/-- As a relation for `Keeps`: the invariant is not lost. -/
def Retains (inv : σ → Prop) (s t : σ) : Prop := inv s → inv t

instance (inv : σ → Prop) : Std.Refl (Retains inv) := ⟨fun _ h => h⟩

instance (inv : σ → Prop) : IsTrans σ (Retains inv) := ⟨fun _ _ _ hst htu hs => htu (hst hs)⟩

section Failing

variable {r : σ → σ → Prop}

theorem keeps_ok [Std.Refl r] (a : α) : Keeps r (pure a : ExceptT ε (StateM σ) α).run := keeps_pure _

theorem keeps_error [Std.Refl r] (e : ε) : Keeps r (throw e : ExceptT ε (StateM σ) α).run := keeps_pure _

theorem keeps_ofExcept [Std.Refl r] (outcome : Except ε α) :
    Keeps r (MonadExcept.ofExcept outcome : ExceptT ε (StateM σ) α).run := by
  cases outcome with
  | ok a => exact keeps_ok a
  | error e => exact keeps_error e

theorem keeps_then [Std.Refl r] [IsTrans σ r] {p : ExceptT ε (StateM σ) α} {k : α → ExceptT ε (StateM σ) β}
    (hp : Keeps r p.run) (hk : ∀ a, Keeps r (k a).run) : Keeps r (p >>= k).run := by
  rw [ExceptT.run_bind]
  refine keeps_bind hp fun outcome => ?_
  cases outcome with
  | ok a => exact hk a
  | error e => exact keeps_pure _

theorem keeps_attempt [Std.Refl r] [IsTrans σ r] {p : ExceptT ε (StateM σ) α} (hp : Keeps r p.run) :
    Keeps r (attempt p).run :=
  keeps_bind hp fun _ => keeps_pure _

theorem keeps_wrapError [Std.Refl r] [IsTrans σ r] {f : ε → ε} {p : ExceptT ε (StateM σ) α} (hp : Keeps r p.run) :
    Keeps r (wrapError f p).run :=
  keeps_bind hp fun _ => keeps_pure _

theorem keeps_each [Std.Refl r] [IsTrans σ r] {p : α → ExceptT ε (StateM σ) PUnit} (xs : List α)
    (hp : ∀ a ∈ xs, Keeps r (p a).run) : Keeps r (forM xs p).run := by
  induction xs with
  | nil => exact keeps_ok _
  | cons x xs ih =>
    rw [List.forM_cons]
    exact keeps_then (hp x List.mem_cons_self) fun _ => ih fun a ha => hp a (List.mem_cons_of_mem _ ha)

theorem keeps_modify {f : σ → σ} (hf : ∀ s, r s (f s)) :
    Keeps r (modify f : ExceptT ε (StateM σ) PUnit).run :=
  fun s => hf s

theorem keeps_get [Std.Refl r] : Keeps r (get : ExceptT ε (StateM σ) σ).run := fun s => refl_of r s

end Failing

/-- From every state with `pre` the program returns a value and a state with `post`, or an error in a state with `err`. -/
def Triple (pre : σ → Prop) (p : ExceptT ε (StateM σ) α) (post : α → σ → Prop) (err : σ → Prop) : Prop :=
  ∀ s, pre s → (∀ a t, p.run.run s = (.ok a, t) → post a t) ∧ (∀ e t, p.run.run s = (.error e, t) → err t)

section Triples

variable {pre mid err : σ → Prop} {post : β → σ → Prop}

theorem triple_of_keeps {inv : σ → Prop} {p : ExceptT ε (StateM σ) α} (hp : Keeps (Retains inv) p.run) :
    Triple inv p (fun _ => inv) inv := by
  intro s hs
  have hend := hp s hs
  refine ⟨fun a t hrun => ?_, fun e t hrun => ?_⟩
  · rwa [hrun] at hend
  · rwa [hrun] at hend

theorem Triple.final {inv : σ → Prop} {p : ExceptT ε (StateM σ) α} (hp : Triple pre p (fun _ => inv) inv) {s : σ}
    (hs : pre s) : inv (p.run.run s).2 := by
  obtain ⟨hok, herr⟩ := hp s hs
  rcases hrun : p.run.run s with ⟨outcome, t⟩
  cases outcome with
  | ok a => exact hok a t hrun
  | error e => exact herr e t hrun

theorem keeps_of_triple {inv : σ → Prop} {p : ExceptT ε (StateM σ) α} (hp : Triple inv p (fun _ => inv) inv) :
    Keeps (Retains inv) p.run :=
  fun _ hs => hp.final hs

theorem triple_ok {a : β} (h : ∀ s, pre s → post a s) : Triple pre (pure a : ExceptT ε (StateM σ) β) post err := by
  intro s hs
  refine ⟨fun b t hrun => ?_, fun e t hrun => (by cases hrun)⟩
  cases hrun
  exact h s hs

theorem triple_error {e : ε} (h : ∀ s, pre s → err s) : Triple pre (throw e : ExceptT ε (StateM σ) β) post err := by
  intro s hs
  refine ⟨fun b t hrun => (by cases hrun), fun e t hrun => ?_⟩
  cases hrun
  exact h s hs

theorem triple_ofExcept {outcome : Except ε β} (hok : ∀ b, outcome = .ok b → ∀ s, pre s → post b s)
    (herr : ∀ s, pre s → err s) : Triple pre (MonadExcept.ofExcept outcome : ExceptT ε (StateM σ) β) post err := by
  cases outcome with
  | ok b => exact triple_ok (hok b rfl)
  | error e => exact triple_error herr

theorem triple_then {mid : α → σ → Prop} {p : ExceptT ε (StateM σ) α} {k : α → ExceptT ε (StateM σ) β}
    (hp : Triple pre p mid err) (hk : ∀ a, Triple (mid a) (k a) post err) : Triple pre (p >>= k) post err := by
  intro s hs
  obtain ⟨hok, herr⟩ := hp s hs
  rw [ExceptT.run_bind, StateT.run_bind]
  rcases hrun : p.run.run s with ⟨outcome, t⟩
  cases outcome with
  | ok a => exact hk a t (hok a t hrun)
  | error e =>
    refine ⟨fun b u hb => (by cases hb), fun e' u he => ?_⟩
    cases he
    exact herr e t hrun

theorem triple_recover {mid : α → σ → Prop} {fail : σ → Prop} {p : ExceptT ε (StateM σ) α}
    {k : Except ε α → ExceptT ε (StateM σ) β} (hp : Triple pre p mid fail)
    (hok : ∀ a, Triple (mid a) (k (.ok a)) post err) (herr : ∀ e, Triple fail (k (.error e)) post err) :
    Triple pre (attempt p >>= k) post err := by
  intro s hs
  obtain ⟨hpok, hperr⟩ := hp s hs
  have hrun : (attempt p >>= k).run.run s = (k (p.run.run s).1).run.run (p.run.run s).2 := rfl
  rw [hrun]
  rcases hp' : p.run.run s with ⟨outcome, t⟩
  cases outcome with
  | ok a => exact hok a t (hpok a t hp')
  | error e => exact herr e t (hperr e t hp')

theorem triple_wrapError {f : ε → ε} {p : ExceptT ε (StateM σ) β} (hp : Triple pre p post err) :
    Triple pre (wrapError f p) post err := by
  intro s hs
  obtain ⟨hok, herr⟩ := hp s hs
  unfold wrapError
  rw [ExceptT.run_mk, StateT.run_bind]
  rcases hrun : p.run.run s with ⟨outcome, t⟩
  cases outcome with
  | ok a =>
    refine ⟨fun b u hb => ?_, fun e u he => (by cases he)⟩
    cases hb
    exact hok a t hrun
  | error e =>
    refine ⟨fun b u hb => (by cases hb), fun e' u he => ?_⟩
    cases he
    exact herr e t hrun

theorem triple_get {k : σ → ExceptT ε (StateM σ) β} (hk : ∀ s, pre s → Triple (· = s) (k s) post err) :
    Triple pre (get >>= k) post err :=
  fun s hs => hk s hs s rfl

theorem triple_modify {f : σ → σ} {post : PUnit → σ → Prop} (h : ∀ s, pre s → post ⟨⟩ (f s)) :
    Triple pre (modify f : ExceptT ε (StateM σ) PUnit) post err := by
  intro s hs
  refine ⟨fun b t hrun => ?_, fun e t hrun => (by cases hrun)⟩
  cases hrun
  exact h s hs

theorem triple_of_fact {fact : Prop} {p : ExceptT ε (StateM σ) β} (hp : fact → Triple pre p post err) :
    Triple (fun s => pre s ∧ fact) p post err :=
  fun s hs => hp hs.2 s hs.1

theorem Triple.weaken {p : ExceptT ε (StateM σ) β} {pre' err' : σ → Prop} {post' : β → σ → Prop}
    (hp : Triple pre p post err) (hpre : ∀ s, pre' s → pre s) (hpost : ∀ a s, post a s → post' a s)
    (herr : ∀ s, err s → err' s) : Triple pre' p post' err' := by
  intro s hs
  obtain ⟨hok, herror⟩ := hp s (hpre s hs)
  exact ⟨fun a t hrun => hpost a t (hok a t hrun), fun e t hrun => herr t (herror e t hrun)⟩

theorem triple_any (p : ExceptT ε (StateM σ) α) : Triple pre p (fun _ _ => True) fun _ => True :=
  fun _ _ => ⟨fun _ _ _ => trivial, fun _ _ _ => trivial⟩

theorem triple_attempt {inv : σ → Prop} {p : ExceptT ε (StateM σ) α} (hp : Triple pre p (fun _ => inv) inv) :
    Triple pre (attempt p) (fun _ => inv) err := by
  intro s hs
  refine ⟨fun outcome t hrun => ?_, fun e t hrun => (by cases hrun)⟩
  cases hrun
  exact hp.final hs

theorem Triple.returns {p : ExceptT ε (StateM σ) β} (hp : Triple pre p post fun _ => False) {s : σ} (hs : pre s) :
    ∃ a t, p.run.run s = (.ok a, t) ∧ post a t := by
  obtain ⟨hok, herr⟩ := hp s hs
  rcases hrun : p.run.run s with ⟨outcome, t⟩
  cases outcome with
  | ok a => exact ⟨a, t, rfl, hok a t hrun⟩
  | error e => exact (herr e t hrun).elim

end Triples

/-- From `s` the program returns `a` and ends in `t`. -/
def Returns (p : ExceptT ε (StateM σ) α) (s : σ) (a : α) (t : σ) : Prop := p.run.run s = (.ok a, t)

section Returning

variable {s t : σ}

theorem returns_of_fst {p : ExceptT ε (StateM σ) α} {a : α} (h : (p.run.run s).1 = .ok a) : Returns p s a (p.run.run s).2 :=
  Prod.ext h rfl

theorem returns_ok_iff {a b : α} : Returns (pure a : ExceptT ε (StateM σ) α) s b t ↔ b = a ∧ t = s := by
  constructor
  · intro h
    cases h
    exact ⟨rfl, rfl⟩
  · rintro ⟨rfl, rfl⟩
    rfl

theorem returns_ofExcept_iff {outcome : Except ε α} {a : α} :
    Returns (MonadExcept.ofExcept outcome : ExceptT ε (StateM σ) α) s a t ↔ outcome = .ok a ∧ t = s := by
  cases outcome with
  | error e => exact ⟨fun h => (by cases h), fun h => (by cases h.1)⟩
  | ok b =>
    refine returns_ok_iff.trans (and_congr_left fun _ => ?_)
    exact ⟨fun h => congrArg _ h.symm, fun h => (Except.ok.inj h).symm⟩

theorem returns_then_iff {p : ExceptT ε (StateM σ) α} {k : α → ExceptT ε (StateM σ) β} {b : β} :
    Returns (p >>= k) s b t ↔ ∃ a m, Returns p s a m ∧ Returns (k a) m b t := by
  unfold Returns
  rw [ExceptT.run_bind, StateT.run_bind]
  rcases hrun : p.run.run s with ⟨outcome, m⟩
  cases outcome with
  | error e => exact ⟨fun h => (by cases h), fun ⟨_, _, h, _⟩ => (by cases h)⟩
  | ok a =>
    constructor
    · exact fun h => ⟨a, m, rfl, h⟩
    · rintro ⟨a', m', heq, h⟩
      cases heq
      exact h

theorem returns_wrapError_iff {f : ε → ε} {p : ExceptT ε (StateM σ) α} {a : α} :
    Returns (wrapError f p) s a t ↔ Returns p s a t := by
  unfold Returns wrapError
  rw [ExceptT.run_mk, StateT.run_bind]
  rcases hrun : p.run.run s with ⟨outcome, m⟩
  cases outcome with
  | error e => exact ⟨fun h => (by cases h), fun h => (by cases h)⟩
  | ok b => exact Iff.rfl

theorem returns_get_iff {a : σ} : Returns (get : ExceptT ε (StateM σ) σ) s a t ↔ a = s ∧ t = s := by
  constructor
  · intro h
    cases h
    exact ⟨rfl, rfl⟩
  · rintro ⟨rfl, rfl⟩
    rfl

theorem returns_modify_iff {f : σ → σ} {u : PUnit} :
    Returns (modify f : ExceptT ε (StateM σ) PUnit) s u t ↔ t = f s := by
  constructor
  · intro h
    cases h
    rfl
  · rintro rfl
    rfl

end Returning

theorem Keeps.ends {r : σ → σ → Prop} {p : ExceptT ε (StateM σ) α} (hp : Keeps r p.run) {s t : σ} {outcome : Except ε α}
    (h : p.run.run s = (outcome, t)) : r s t := by
  have hend := hp s
  rwa [h] at hend

theorem triple_at {r : σ → σ → Prop} {p : ExceptT ε (StateM σ) α} (hp : Keeps r p.run) (s : σ) :
    Triple (· = s) p (Returns p s) (r s) := by
  intro s' hs'
  subst hs'
  exact ⟨fun a t h => h, fun e t h => hp.ends h⟩

theorem loop_parts {ι κ : Type} (part : σ → ι → κ) (rel : ι → κ → κ → Prop) (good : List ι → σ → Prop)
    {p : ι → ExceptT ε (StateM σ) PUnit}
    (hround : ∀ i rest s, good (i :: rest) s → ∃ t, (p i).run.run s = (.ok ⟨⟩, t) ∧ good rest t ∧
      (∀ j, j ≠ i → part t j = part s j) ∧ rel i (part s i) (part t i))
    {xs : List ι} (hagain : xs.Nodup ∨ ∀ i a b c, rel i a b → rel i b c → rel i a c) {s : σ} (hs : good xs s) :
    ∃ t, (forM xs p).run.run s = (.ok ⟨⟩, t) ∧ good [] t ∧
      ∀ i, (i ∈ xs → rel i (part s i) (part t i)) ∧ (i ∉ xs → part t i = part s i) := by
  classical
  induction xs generalizing s with
  | nil => exact ⟨s, rfl, hs, fun i => ⟨fun hi => (by cases hi), fun _ => rfl⟩⟩
  | cons x xs ih =>
    obtain ⟨m, hrun, hm, hothers, hx⟩ := hround x xs s hs
    obtain ⟨t, hrest, ht, hparts⟩ := ih (hagain.imp (fun h => (List.nodup_cons.mp h).2) id) hm
    refine ⟨t, ?_, ht, fun i => ⟨fun hi => ?_, fun hi => ?_⟩⟩
    · rw [show forM (x :: xs) p = (p x >>= fun _ => forM xs p) from rfl, ExceptT.run_bind, StateT.run_bind, hrun]
      exact hrest
    · by_cases hix : i = x
      · subst hix
        by_cases hlater : i ∈ xs
        · rcases hagain with hnodup | htrans
          · exact absurd hlater (List.nodup_cons.mp hnodup).1
          · exact htrans i _ _ _ hx ((hparts i).1 hlater)
        · rw [(hparts i).2 hlater]
          exact hx
      · rw [← hothers i hix]
        exact (hparts i).1 ((List.mem_cons.mp hi).resolve_left hix)
    · rw [List.mem_cons, not_or] at hi
      rw [(hparts i).2 hi.2, hothers i hi.1]

theorem returned_parts {ι κ γ : Type} (key : ι → κ) (part : σ → κ → γ) (rel : ι → γ → γ → Prop)
    {p : ι → ExceptT ε (StateM σ) PUnit}
    (hround : ∀ i s t, Returns (p i) s ⟨⟩ t →
      (∀ k, k ≠ key i → part t k = part s k) ∧ rel i (part s (key i)) (part t (key i)))
    {xs : List ι} (hnodup : (xs.map key).Nodup) {s t : σ} (h : Returns (forM xs p) s ⟨⟩ t) :
    (∀ i ∈ xs, rel i (part s (key i)) (part t (key i))) ∧ ∀ k, k ∉ xs.map key → part t k = part s k := by
  induction xs generalizing s with
  | nil =>
    cases h
    exact ⟨fun i hi => (by cases hi), fun _ _ => rfl⟩
  | cons x xs ih =>
    rw [List.map_cons, List.nodup_cons] at hnodup
    obtain ⟨_, m, hx, hrest⟩ := returns_then_iff.mp h
    obtain ⟨hothers, hself⟩ := hround x s m hx
    obtain ⟨hlater, hframe⟩ := ih hnodup.2 hrest
    refine ⟨fun i hi => ?_, fun k hk => ?_⟩
    · rcases List.mem_cons.mp hi with rfl | hi
      · rw [hframe (key i) hnodup.1]
        exact hself
      · have hne : key i ≠ key x := fun heq => hnodup.1 (heq ▸ List.mem_map.mpr ⟨i, hi, rfl⟩)
        rw [← hothers (key i) hne]
        exact hlater i hi
    · rw [List.map_cons, List.mem_cons, not_or] at hk
      rw [hframe k hk.2, hothers k hk.1]

end Base
