import Mathlib.Algebra.Order.BigOperators.Group.List
import Mathlib.Algebra.Order.Ring.Nat
import Waypoint.Dashboard.Subscriptions

/-!
# Redundant registrations

A pattern is registered only if no registered one covers it, and those that it covers are given up.
-/

namespace Waypoint.Dashboard

open Base

def Subsumes (p q : String) : Prop := ∀ subject, Matches q subject → Matches p subject

def fresh (p : List String) : String := String.ofList (List.replicate ((p.map String.length).sum + 1) 'x')

theorem fresh_not_mem (p : List String) : fresh p ∉ p := by
  intro h
  have hlength := List.single_le_sum (by simp) _ (List.mem_map_of_mem (f := String.length) h)
  rw [fresh, String.length_ofList, List.length_replicate] at hlength
  omega

theorem literal_fresh (p : List String) : ValidToken (fresh p) ∧ fresh p ≠ "*" ∧ fresh p ≠ ">" := by
  have hchars : (fresh p).toList = 'x' :: List.replicate (p.map String.length).sum 'x' := by
    rw [fresh, String.toList_ofList, List.replicate_succ]
  refine ⟨⟨?_, fun c hc => ?_⟩, ?_, ?_⟩
  · intro h
    rw [h] at hchars
    cases hchars
  · have hx : c = 'x' := by
      rw [fresh, String.toList_ofList] at hc
      exact List.eq_of_mem_replicate hc
    rw [hx]
    decide
  · intro h
    rw [h] at hchars
    cases hchars
  · intro h
    rw [h] at hchars
    cases hchars

def instantiate (x : String) (q : List String) : List String := q.map fun t => if t = "*" ∨ t = ">" then x else t

theorem covers_instantiate {x : String} (hx : x ≠ ">") {q : List String} (hq : WellFormed q) :
    covers q (instantiate x q) = true := by
  induction q with
  | nil => rfl
  | cons t q ih =>
    rw [instantiate, List.map_cons, covers]
    have hrest : covers q (q.map fun t => if t = "*" ∨ t = ">" then x else t) = true := ih (wellFormed_tail hq).1
    by_cases ht : t = ">"
    · rw [if_pos ht]
    · by_cases hstar : t = "*"
      · simp [hstar, hx, hrest]
      · simp [ht, hstar, hrest]

theorem matchTokens_of_instance {x : String} {p q : List String} (hp : WellFormed p) (hx : x ∉ p)
    (h : covers p (instantiate x q) = true) : matchTokens p q = true := by
  induction p generalizing q with
  | nil =>
    cases q with
    | nil => rfl
    | cons u q => cases h
  | cons t p ih =>
    cases q with
    | nil => cases h
    | cons u q =>
      rw [instantiate, List.map_cons, covers] at h
      rw [matchTokens_cons]
      rw [List.mem_cons, not_or] at hx
      by_cases ht : t = ">"
      · rw [if_pos ht, (wellFormed_tail hp).2 ht]
        rfl
      rw [if_neg ht] at h ⊢
      have hrest : covers p (instantiate x q) = true → matchTokens p q = true := ih (wellFormed_tail hp).1 hx.2
      by_cases hstar : t = "*"
      · rw [if_pos hstar, Bool.and_eq_true] at h
        rw [if_pos hstar]
        exact hrest h.2
      rw [if_neg hstar, Bool.and_eq_true, decide_eq_true_eq] at h
      have hu : t = u := by
        by_cases hwild : u = "*" ∨ u = ">"
        · rw [if_pos hwild] at h
          exact absurd h.1.symm hx.1
        · rw [if_neg hwild] at h
          exact h.1
      rw [if_neg hstar, hu, hrest h.2]
      simp

theorem matchesSubject_of_subsumes {p q : String} (hq : WellFormed (tokens q)) (h : Subsumes p q) :
    matchesSubject p q = true := by
  have hx := literal_fresh (tokens p)
  have hliteral : Literal (instantiate (fresh (tokens p)) (tokens q)) := by
    intro t ht
    obtain ⟨u, hu, rfl⟩ := List.mem_map.mp ht
    split
    · exact hx
    · rename_i hwild
      rw [not_or] at hwild
      exact ⟨hq.1 u hu, hwild⟩
  have htokens : tokens (".".intercalate (instantiate (fresh (tokens p)) (tokens q))) =
      instantiate (fresh (tokens p)) (tokens q) := by
    refine fields_intercalate rfl (by simp [instantiate, tokens, fields_ne_nil]) fun t ht hdot => ?_
    exact (hliteral t ht).1.2 '.' hdot (by decide)
  obtain ⟨hp, -, hcovers⟩ := h (".".intercalate (instantiate (fresh (tokens p)) (tokens q)))
    ⟨hq, by rwa [htokens], by rw [htokens]; exact covers_instantiate hx.2.2 hq⟩
  rw [htokens] at hcovers
  rw [matchesSubject, matchTokens_of_instance hp (fresh_not_mem _) hcovers, Bool.or_true]

namespace Bus

/-- The registered patterns are in use, and none is taken to cover another one. -/
structure Irredundant (b : Bus) : Prop where
  wellFormed : ∀ p ∈ b.patterns, WellFormed (tokens p)
  inUse : ∀ e ∈ b.serverSubs, e ∈ b.patterns
  distinct : ∀ p ∈ b.serverSubs, ∀ q ∈ b.serverSubs, p ≠ q → matchesSubject p q = false

variable {b b' : Bus} {subject : String} {handler : Handler} {e : Event}

theorem Irredundant.congr (h : b.Irredundant) (hpatterns : b'.patterns = b.patterns) (hserver : b'.serverSubs = b.serverSubs) :
    b'.Irredundant where
  wellFormed := by rw [hpatterns]; exact h.wellFormed
  inUse := by rw [hpatterns, hserver]; exact h.inUse
  distinct := by rw [hserver]; exact h.distinct

theorem irredundant_addServerSub (hwell : ∀ p ∈ b.patterns, WellFormed (tokens p)) (hnew : subject ∈ b.patterns)
    (hinUse : ∀ e ∈ b.serverSubs, e ∈ b.patterns)
    (hdistinct : ∀ p ∈ b.serverSubs, ∀ q ∈ b.serverSubs, p ≠ q → matchesSubject p q = false) :
    (b.addServerSub subject).Irredundant := by
  have hpatterns : (b.addServerSub subject).patterns = b.patterns := congrArg (List.map Prod.fst) (subs_addServerSub subject b)
  unfold addServerSub at hpatterns ⊢
  split
  · exact ⟨hwell, hinUse, hdistinct⟩
  rename_i hany
  rw [if_neg hany] at hpatterns
  have huncovered : ∀ e ∈ b.serverSubs, matchesSubject e subject = false := by simpa using hany
  refine ⟨hpatterns ▸ hwell, ?_, ?_⟩
  · rw [hpatterns]
    simp only [serverSubs_send, List.mem_append, List.mem_singleton, mem_dropCovered]
    rintro e (he | rfl)
    · exact hinUse e he.1
    · exact hnew
  · simp only [serverSubs_send, List.mem_append, List.mem_singleton, mem_dropCovered]
    rintro p (hp | rfl) q (hq | rfl) hne
    · exact hdistinct p hp.1 q hq.1 hne
    · exact huncovered p hp.1
    · exact Bool.eq_false_iff.mpr fun hmatch => hq.2 ⟨hq.1, hne.symm, hmatch⟩
    · exact absurd rfl hne

def lost (server : List String) (p : String) : Bool := server.all fun e => !matchesSubject e p

/-- None of the patterns that are to be restored covers a registered one, or one that is restored before it. -/
def Restorable (server ps : List String) : Prop :=
  (∀ p ∈ ps.filter (lost server), ∀ e ∈ server, matchesSubject p e = false) ∧
    (ps.filter (lost server)).Pairwise fun q p => matchesSubject p q = false

instance (server ps : List String) : Decidable (Restorable server ps) := inferInstanceAs (Decidable (_ ∧ _))

theorem distinct_restore (server : List String) {l : List String} {b : Bus} (hserver : ∀ e ∈ server, e ∈ b.serverSubs)
    (hdistinct : ∀ p ∈ b.serverSubs, ∀ q ∈ b.serverSubs, p ≠ q → matchesSubject p q = false)
    (hkept : ∀ p ∈ l.filter (lost server), ∀ e ∈ b.serverSubs, matchesSubject p e = false)
    (hbefore : (l.filter (lost server)).Pairwise fun q p => matchesSubject p q = false) :
    ∀ p ∈ (l.foldl restore b).serverSubs, ∀ q ∈ (l.foldl restore b).serverSubs, p ≠ q → matchesSubject p q = false := by
  induction l generalizing b with
  | nil => exact hdistinct
  | cons r l ih =>
    have hrest : (l.filter (lost server)).Sublist ((r :: l).filter (lost server)) := (List.sublist_cons_self r l).filter _
    rw [List.foldl_cons, restore]
    split
    · exact ih hserver hdistinct (fun p hp => hkept p (hrest.subset hp)) (hbefore.sublist hrest)
    rename_i hnone
    rw [not_or, Bool.not_eq_true, List.any_eq_false] at hnone
    have hlost : lost server r = true := by
      rw [lost, List.all_eq_true]
      exact fun e he => by simpa using hnone.2 e (hserver e he)
    rw [List.filter_cons_of_pos hlost] at hkept hbefore
    rw [List.forall_mem_cons] at hkept
    rw [List.pairwise_cons] at hbefore
    refine ih ?_ ?_ ?_ hbefore.2
    · simp only [serverSubs_send, List.mem_append]
      exact fun e he => .inl (hserver e he)
    · simp only [serverSubs_send, List.mem_append, List.mem_singleton]
      rintro p (hp | rfl) q (hq | rfl) hne
      · exact hdistinct p hp q hq hne
      · exact Bool.eq_false_iff.mpr (hnone.2 p hp)
      · exact hkept.1 q hq
      · exact absurd rfl hne
    · simp only [serverSubs_send, List.mem_append, List.mem_singleton]
      rintro p hp e (he | rfl)
      · exact hkept.2 p hp e he
      · exact hbefore.1 p hp

theorem irredundant_removeServerSub (hwell : ∀ p ∈ b.patterns, WellFormed (tokens p))
    (hinUse : ∀ e ∈ b.serverSubs, e ≠ subject → e ∈ b.patterns)
    (hdistinct : ∀ p ∈ b.serverSubs, ∀ q ∈ b.serverSubs, p ≠ q → matchesSubject p q = false)
    (hok : subject ∈ b.serverSubs → Restorable (b.serverSubs.filter (· ≠ subject)) b.patterns) :
    (b.removeServerSub subject).Irredundant := by
  have hpatterns : (b.removeServerSub subject).patterns = b.patterns :=
    congrArg (List.map Prod.fst) (subs_removeServerSub subject b)
  unfold removeServerSub at hpatterns ⊢
  split
  · rename_i hmem
    rw [if_pos hmem] at hpatterns
    refine ⟨hpatterns ▸ hwell, fun e he => ?_, ?_⟩
    · rw [hpatterns]
      rcases (serverSubs_restore_all _ _).2.1 e he with he | he
      · rw [serverSubs_send, List.mem_filter, decide_eq_true_eq] at he
        exact hinUse e he.1 he.2
      · rwa [subs_send] at he
    · dsimp only
      rw [subs_send]
      refine distinct_restore (b.serverSubs.filter (· ≠ subject)) ?_ ?_ ?_ (hok hmem).2
      · rw [serverSubs_send]
        exact fun e he => he
      · rw [serverSubs_send]
        exact fun p hp q hq => hdistinct p (List.mem_of_mem_filter hp) q (List.mem_of_mem_filter hq)
      · rw [serverSubs_send]
        exact (hok hmem).1
  · rename_i hnot
    exact ⟨hwell, fun e he => hinUse e he fun heq => hnot (heq ▸ he), hdistinct⟩

/-- Patterns are valid, and where the last handler of a pattern goes, what has to be restored can be. -/
def Restores (b : Bus) : Event → Prop
  | .subscribe subject _ => WellFormed (tokens subject)
  | .unsubscribe subject handler => subject ∈ b.serverSubs → (∀ h ∈ (b.subs.lookup subject).getD [], h = handler) →
    Restorable (b.serverSubs.filter (· ≠ subject)) ((b.subs.filter fun e => e.1 ≠ subject).map Prod.fst)
  | _ => True

instance (b : Bus) (e : Event) : Decidable (b.Restores e) := by
  cases e <;> unfold Restores <;> infer_instance

theorem irredundant_next (h : b.Irredundant) (hok : b.Restores e) (hnext : b.next e = some b') : b'.Irredundant := by
  by_cases hsub : ∃ subject handler, e = .subscribe subject handler
  · obtain ⟨subject, handler, rfl⟩ := hsub
    obtain rfl := Option.some.inj hnext
    unfold subscribe
    split
    · exact h.congr (patterns_setHandlers _ _ _) rfl
    have hpatterns : ({ b with subs := b.subs ++ [(subject, [handler])] } : Bus).patterns = b.patterns ++ [subject] := by
      simp [patterns]
    refine irredundant_addServerSub ?_ ?_ ?_ h.distinct
    · rw [hpatterns, List.forall_mem_append]
      exact ⟨h.wellFormed, List.forall_mem_singleton.mpr hok⟩
    · rw [hpatterns]
      exact List.mem_append_right _ List.mem_cons_self
    · rw [hpatterns]
      exact fun e he => List.mem_append_left _ (h.inUse e he)
  · by_cases hunsub : ∃ subject handler, e = .unsubscribe subject handler
    · obtain ⟨subject, handler, rfl⟩ := hunsub
      obtain rfl := Option.some.inj hnext
      unfold unsubscribe
      split
      · exact h
      rename_i handlers hlookup
      dsimp only
      split
      · rename_i hrest
        have hlast : ∀ h ∈ (b.subs.lookup subject).getD [], h = handler := by
          rw [hlookup]
          simpa using hrest
        have hpatterns := mem_patterns_filter b subject
        exact irredundant_removeServerSub (fun p hp => h.wellFormed p ((hpatterns p).mp hp).1)
          (fun e he hne => (hpatterns e).mpr ⟨h.inUse e he, hne⟩) h.distinct fun hmem => hok hmem hlast
      · exact h.congr (patterns_setHandlers _ _ _) rfl
    · obtain ⟨hsubs, hserver⟩ := Prod.mk.inj (subscriptions_next hnext (fun subject handler heq => hsub ⟨subject, handler, heq⟩)
        fun subject handler heq => hunsub ⟨subject, handler, heq⟩)
      exact h.congr (congrArg (List.map Prod.fst) hsubs) hserver

/-- No pattern at the server is covered by another. -/
def Minimal (b : Bus) : Prop :=
  (∀ e ∈ b.serverSubs, e ∈ b.patterns) ∧ ∀ p ∈ b.serverSubs, ∀ q ∈ b.serverSubs, p ≠ q → ¬Subsumes p q

theorem Irredundant.minimal (h : b.Irredundant) : b.Minimal := by
  refine ⟨h.inUse, fun p hp q hq hne hsubsumes => ?_⟩
  have hmatch := matchesSubject_of_subsumes (h.wellFormed q (h.inUse q hq)) hsubsumes
  rw [h.distinct p hp q hq hne] at hmatch
  cases hmatch

end Bus

open Bus in
/-- In every run in which the patterns that a removal restores do not cover others, no registered pattern is redundant. -/
theorem server_subs_minimal (es : List Event) (b : Bus) (hrun : Run (Guarded Restores (Takes next)) init es b) : b.Minimal := by
  have hinit : init.Irredundant := ⟨by simp [init, patterns], by simp [init], by simp [init]⟩
  exact (hrun.invariant Irredundant (fun _ _ _ hs hstep => irredundant_next hs hstep.1 hstep.2) hinit).minimal

def wildcardLeaves : List Bus.Event :=
  [.subscribe "a.>" 0, .subscribe "a.b" 1, .subscribe "a.c" 2, .unsubscribe "a.>" 0]

theorem server_subs_minimal_subjects : ∃ b, Run (Guarded Bus.Restores (Takes Bus.next)) Bus.init wildcardLeaves b ∧
    b.serverSubs = ["a.b", "a.c"] ∧ b.Minimal := by
  have hrun : (wildcardLeaves.foldlM (fun (b : Bus) e => if b.Restores e then b.next e else none) Bus.init).map
      Bus.serverSubs = some ["a.b", "a.c"] := by decide +kernel
  obtain ⟨b, hb, hserver⟩ := Option.map_eq_some_iff.mp hrun
  have hb := run_guarded_iff.mpr hb
  exact ⟨b, hb, hserver, server_subs_minimal _ b hb⟩

/-- A subject is restored before the pattern that covers it. -/
theorem narrow_pattern_restored : ∃ b, Run (Takes Bus.next) Bus.init
    [.subscribe ">" 0, .subscribe "a.b" 1, .subscribe "a.*" 2, .unsubscribe ">" 0] b ∧
      b.serverSubs = ["a.b", "a.*"] ∧ ¬b.Minimal := by
  have hrun : (List.foldlM Bus.next Bus.init
      [.subscribe ">" 0, .subscribe "a.b" 1, .subscribe "a.*" 2, .unsubscribe ">" 0]).map Bus.serverSubs =
        some ["a.b", "a.*"] := by decide +kernel
  obtain ⟨b, hb, hserver⟩ := Option.map_eq_some_iff.mp hrun
  refine ⟨b, run_takes_iff.mpr hb, hserver, fun h => h.2 "a.*" (by simp [hserver]) "a.b" (by simp [hserver]) (by decide) ?_⟩
  rintro subject ⟨-, hliteral, hcovers⟩
  exact ⟨by decide +kernel, hliteral, covers_trans (show covers (tokens "a.*") (tokens "a.b") = true by decide +kernel) hcovers⟩

end Waypoint.Dashboard
