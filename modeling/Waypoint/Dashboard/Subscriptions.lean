import Waypoint.Dashboard.Bus

/-!
# What the server is asked for

The bus registers a pattern only if no registered pattern covers it, and decides that with the function that matches a pattern against a subject.
-/

namespace Waypoint.Dashboard

open Base

/-- A pattern that ends in `*` where the other one ends in `>`, and covers it up to there. -/
def Mistaken (p s : List String) : Prop := ∃ q r, p = q ++ ["*"] ∧ s = r ++ [">"] ∧ covers q r = true

variable {p s : List String}

theorem mistaken_iff :
    Mistaken p s ↔ p.getLast? = some "*" ∧ s.getLast? = some ">" ∧ covers p.dropLast s.dropLast = true := by
  constructor
  · rintro ⟨q, r, rfl, rfl, hcovers⟩
    simpa using hcovers
  rintro ⟨hp, hs, hcovers⟩
  obtain ⟨q, rfl⟩ := List.getLast?_eq_some_iff.mp hp
  obtain ⟨r, rfl⟩ := List.getLast?_eq_some_iff.mp hs
  exact ⟨q, r, rfl, rfl, by simpa using hcovers⟩

instance (p s : List String) : Decidable (Mistaken p s) := decidable_of_iff _ mistaken_iff.symm

theorem mistaken_cons {t u : String} (hhead : covers [t] [u] = true) (ht : t ≠ ">")
    (h : Mistaken p s) : Mistaken (t :: p) (u :: s) := by
  obtain ⟨q, r, rfl, rfl, hcovers⟩ := h
  refine ⟨t :: q, u :: r, rfl, rfl, ?_⟩
  rw [covers, if_neg ht] at hhead ⊢
  split
  · rename_i hstar
    rw [if_pos hstar, Bool.and_eq_true] at hhead
    rw [hhead.1, hcovers]
    rfl
  · rename_i hstar
    rw [if_neg hstar, Bool.and_eq_true] at hhead
    rw [hhead.1, hcovers]
    rfl

theorem covers_or_mistaken (hp : WellFormed p) (hs : WellFormed s) (h : matchTokens p s = true) :
    covers p s = true ∨ Mistaken p s := by
  induction p generalizing s with
  | nil =>
    rw [matchTokens, List.isEmpty_iff] at h
    rw [h]
    exact .inl rfl
  | cons t p ih =>
    obtain ⟨hp', -⟩ := wellFormed_tail hp
    cases s with
    | nil =>
      rw [matchTokens_nil] at h
      cases h
    | cons u s =>
      obtain ⟨hs', hend⟩ := wellFormed_tail hs
      rw [matchTokens_cons] at h
      rw [covers]
      by_cases ht : t = ">"
      · exact .inl (if_pos ht)
      rw [if_neg ht] at h ⊢
      by_cases hstar : t = "*"
      · rw [if_pos hstar] at h ⊢
        by_cases hu : u = ">"
        · -- the one case in which the two differ
          rw [hend hu] at h ⊢
          cases p with
          | nil =>
            rw [hstar, hu]
            exact .inr ⟨[], [], rfl, rfl, rfl⟩
          | cons v p =>
            rw [matchTokens_nil] at h
            cases h
        · rcases ih hp' hs' h with hcovers | hmistaken
          · exact .inl (by simp [hu, hcovers])
          · refine .inr (mistaken_cons ?_ ht hmistaken)
            rw [covers, if_neg ht, if_pos hstar]
            simp [hu, covers]
      · rw [if_neg hstar, Bool.and_eq_true, decide_eq_true_eq] at h
        rw [if_neg hstar]
        obtain ⟨rfl, h⟩ := h
        rcases ih hp' hs' h with hcovers | hmistaken
        · exact .inl (by simp [hcovers])
        · exact .inr (mistaken_cons (covers_refl [t]) ht hmistaken)

/-- Two patterns, neither of which is mistaken for one that covers the other. -/
def Apart (p s : String) : Prop := ¬Mistaken (tokens p) (tokens s) ∧ ¬Mistaken (tokens s) (tokens p)

instance (p s : String) : Decidable (Apart p s) := inferInstanceAs (Decidable (_ ∧ _))

theorem covers_of_matchesSubject {p s : String} (hp : WellFormed (tokens p)) (hs : WellFormed (tokens s))
    (hapart : ¬Mistaken (tokens p) (tokens s)) (h : matchesSubject p s = true) : covers (tokens p) (tokens s) = true := by
  rw [matchesSubject, Bool.or_eq_true, decide_eq_true_eq] at h
  rcases h with rfl | h
  · exact covers_refl _
  · exact (covers_or_mistaken hp hs h).resolve_right hapart

namespace Bus

theorem subs_dropCovered (subject : String) (l : List String) (b : Bus) : (l.foldl (dropCovered subject) b).subs = b.subs := by
  induction l generalizing b with
  | nil => rfl
  | cons e l ih =>
    rw [List.foldl_cons, ih, dropCovered]
    split <;> simp

theorem mem_dropCovered {subject e : String} {l : List String} {b : Bus} :
    e ∈ (l.foldl (dropCovered subject) b).serverSubs ↔
      e ∈ b.serverSubs ∧ ¬(e ∈ l ∧ e ≠ subject ∧ matchesSubject subject e = true) := by
  induction l generalizing b with
  | nil => simp
  | cons f l ih =>
    rw [List.foldl_cons, ih, dropCovered]
    split
    · rename_i hdrop
      simp only [serverSubs_send, List.mem_filter, decide_eq_true_eq, List.mem_cons]
      constructor
      · rintro ⟨⟨he, hne⟩, hrest⟩
        exact ⟨he, fun h => hrest ⟨h.1.resolve_left hne, h.2⟩⟩
      rintro ⟨he, hrest⟩
      refine ⟨⟨he, ?_⟩, fun h => hrest ⟨.inr h.1, h.2⟩⟩
      rintro rfl
      exact hrest ⟨.inl rfl, hdrop⟩
    · rename_i hkeep
      rw [List.mem_cons]
      refine and_congr_right fun _ => not_congr ⟨fun h => ⟨.inr h.1, h.2⟩, fun h => ⟨?_, h.2⟩⟩
      refine h.1.resolve_left ?_
      rintro rfl
      exact hkeep h.2

theorem subs_restore (l : List String) (b : Bus) : (l.foldl restore b).subs = b.subs := by
  induction l generalizing b with
  | nil => rfl
  | cons p l ih =>
    rw [List.foldl_cons, ih, restore]
    split <;> simp

theorem serverSubs_restore_subset (b : Bus) (p : String) :
    (∀ e ∈ b.serverSubs, e ∈ (b.restore p).serverSubs) ∧ (∀ e ∈ (b.restore p).serverSubs, e ∈ b.serverSubs ∨ e = p) ∧
      ∃ e ∈ (b.restore p).serverSubs, matchesSubject e p = true := by
  unfold restore
  split
  · rename_i hcovered
    refine ⟨fun _ he => he, fun _ he => .inl he, ?_⟩
    rcases hcovered with hmem | hany
    · exact ⟨p, hmem, by simp [matchesSubject]⟩
    · exact List.any_eq_true.mp hany
  · simp only [serverSubs_send, List.mem_append, List.mem_singleton]
    exact ⟨fun _ he => .inl he, fun _ he => he, p, .inr rfl, by simp [matchesSubject]⟩

theorem serverSubs_restore_all (l : List String) (b : Bus) :
    (∀ e ∈ b.serverSubs, e ∈ (l.foldl restore b).serverSubs) ∧
      (∀ e ∈ (l.foldl restore b).serverSubs, e ∈ b.serverSubs ∨ e ∈ l) ∧
      ∀ p ∈ l, ∃ e ∈ (l.foldl restore b).serverSubs, matchesSubject e p = true := by
  induction l generalizing b with
  | nil => exact ⟨fun _ he => he, fun _ he => .inl he, fun p hp => by cases hp⟩
  | cons p l ih =>
    obtain ⟨hkeep, honly, e, he, hmatch⟩ := serverSubs_restore_subset b p
    obtain ⟨hkeep', honly', hall⟩ := ih (b.restore p)
    refine ⟨fun e he => hkeep' e (hkeep e he), fun e he => ?_, fun p' hp' => ?_⟩
    · rcases honly' e he with he | he
      · rcases honly e he with he | rfl
        · exact .inl he
        · exact .inr List.mem_cons_self
      · exact .inr (List.mem_cons_of_mem _ he)
    · rcases List.mem_cons.mp hp' with rfl | hp'
      · exact ⟨e, hkeep' e he, hmatch⟩
      · exact hall p' hp'

theorem subs_addServerSub (subject : String) (b : Bus) : (b.addServerSub subject).subs = b.subs := by
  unfold addServerSub
  split
  · rfl
  · exact (subs_send _ _).trans (subs_dropCovered subject b.serverSubs b)

theorem subs_removeServerSub (subject : String) (b : Bus) : (b.removeServerSub subject).subs = b.subs := by
  unfold removeServerSub
  split
  · exact (subs_restore _ _).trans (subs_send _ _)
  · rfl

def patterns (b : Bus) : List String := b.subs.map Prod.fst

/-- Patterns among which what the function says about covering is right. -/
structure Clear (ps : List String) : Prop where
  wellFormed : ∀ p ∈ ps, WellFormed (tokens p)
  apart : ∀ p ∈ ps, ∀ q ∈ ps, ¬Mistaken (tokens p) (tokens q)

variable {ps : List String} {e : Event}

theorem Clear.covers (h : Clear ps) {p q : String} (hp : p ∈ ps) (hq : q ∈ ps)
    (hmatch : matchesSubject p q = true) : covers (tokens p) (tokens q) = true :=
  covers_of_matchesSubject (h.wellFormed p hp) (h.wellFormed q hq) (h.apart p hp q hq) hmatch

theorem Clear.subset {qs : List String} (h : Clear ps) (hsub : ∀ q ∈ qs, q ∈ ps) : Clear qs where
  wellFormed p hp := h.wellFormed p (hsub p hp)
  apart p hp q hq := h.apart p (hsub p hp) q (hsub q hq)

/-- Every pattern with a handler is covered by one that the server has. -/
structure Registered (b : Bus) : Prop where
  clear : Clear b.patterns
  inUse : ∀ e ∈ b.serverSubs, e ∈ b.patterns
  covered : ∀ p ∈ b.patterns, ∃ e ∈ b.serverSubs, covers (tokens e) (tokens p) = true

variable {b b' : Bus} {subject : String} {handler : Handler}

theorem Registered.congr (h : b.Registered) (hpatterns : b'.patterns = b.patterns) (hserver : b'.serverSubs = b.serverSubs) :
    b'.Registered where
  clear := hpatterns ▸ h.clear
  inUse := by rw [hpatterns, hserver]; exact h.inUse
  covered := by rw [hpatterns, hserver]; exact h.covered

theorem registered_addServerSub (hclear : Clear b.patterns) (hnew : subject ∈ b.patterns)
    (hinUse : ∀ e ∈ b.serverSubs, e ∈ b.patterns)
    (hcovered : ∀ p ∈ b.patterns, p ≠ subject → ∃ e ∈ b.serverSubs, covers (tokens e) (tokens p) = true) :
    (b.addServerSub subject).Registered := by
  unfold addServerSub
  split
  · rename_i hany
    obtain ⟨e, he, hmatch⟩ := List.any_eq_true.mp hany
    refine ⟨hclear, hinUse, fun p hp => ?_⟩
    by_cases hp' : p = subject
    · exact ⟨e, he, hp' ▸ hclear.covers (hinUse e he) hnew hmatch⟩
    · exact hcovered p hp hp'
  · have hpatterns : (send (.sub subject) { b.serverSubs.foldl (dropCovered subject) b with
        serverSubs := (b.serverSubs.foldl (dropCovered subject) b).serverSubs ++ [subject] }).patterns = b.patterns := by
      rw [patterns, subs_send]
      exact congrArg (List.map Prod.fst) (subs_dropCovered subject b.serverSubs b)
    refine ⟨hpatterns ▸ hclear, ?_, ?_⟩
    · intro e he
      rw [hpatterns]
      rw [serverSubs_send] at he
      rcases List.mem_append.mp he with he | he
      · exact hinUse e (mem_dropCovered.mp he).1
      · rwa [List.mem_singleton.mp he]
    · intro p hp
      rw [hpatterns] at hp
      simp only [serverSubs_send, List.mem_append, List.mem_singleton]
      by_cases hp' : p = subject
      · exact ⟨subject, .inr rfl, hp' ▸ covers_refl _⟩
      obtain ⟨e, he, hcovers⟩ := hcovered p hp hp'
      by_cases hdropped : e ≠ subject ∧ matchesSubject subject e = true
      · exact ⟨subject, .inr rfl, covers_trans (hclear.covers hnew (hinUse e he) hdropped.2) hcovers⟩
      · exact ⟨e, .inl (mem_dropCovered.mpr ⟨he, fun h => hdropped h.2⟩), hcovers⟩

theorem registered_removeServerSub (hclear : Clear b.patterns)
    (hinUse : ∀ e ∈ b.serverSubs, e ≠ subject → e ∈ b.patterns)
    (hcovered : ∀ p ∈ b.patterns, ∃ e ∈ b.serverSubs, covers (tokens e) (tokens p) = true) :
    (b.removeServerSub subject).Registered := by
  unfold removeServerSub
  split
  · let m := send (.unsub subject) { b with serverSubs := b.serverSubs.filter (· ≠ subject) }
    have hsubs : m.subs = b.subs := subs_send _ _
    have hserver : m.serverSubs = b.serverSubs.filter (· ≠ subject) := serverSubs_send _ _
    obtain ⟨-, honly, hall⟩ := serverSubs_restore_all b.patterns m
    have hpatterns : (b.patterns.foldl restore m).patterns = b.patterns := by
      rw [patterns, subs_restore, hsubs]
      rfl
    have hinUse' : ∀ e ∈ (b.patterns.foldl restore m).serverSubs, e ∈ b.patterns := by
      intro e he
      rcases honly e he with he | he
      · rw [hserver, List.mem_filter, decide_eq_true_eq] at he
        exact hinUse e he.1 he.2
      · exact he
    change ((m.subs.map Prod.fst).foldl restore m).Registered
    rw [hsubs]
    change (b.patterns.foldl restore m).Registered
    refine ⟨by rwa [hpatterns], by rwa [hpatterns], fun p hp => ?_⟩
    rw [hpatterns] at hp
    obtain ⟨e, he, hmatch⟩ := hall p hp
    exact ⟨e, he, hclear.covers (hinUse' e he) hp hmatch⟩
  · rename_i hnot
    refine ⟨hclear, fun e he => hinUse e he ?_, hcovered⟩
    rintro rfl
    exact hnot he

theorem patterns_setHandlers (subject : String) (handlers : List Handler) (b : Bus) :
    (b.setHandlers subject handlers).patterns = b.patterns := by
  rw [patterns, setHandlers, List.map_map, patterns]
  refine List.map_congr_left fun e _ => ?_
  dsimp only [Function.comp]
  split
  · rename_i heq
    exact heq.symm
  · rfl

theorem registered_subscribe (h : b.Registered) (hwell : WellFormed (tokens subject))
    (hapart : ∀ p ∈ b.patterns, Apart p subject) : (b.subscribe subject handler).Registered := by
  unfold subscribe
  split
  · exact h.congr (patterns_setHandlers _ _ _) rfl
  have hpatterns : ({ b with subs := b.subs ++ [(subject, [handler])] } : Bus).patterns = b.patterns ++ [subject] := by
    simp [patterns]
  have hself : ¬Mistaken (tokens subject) (tokens subject) := by
    rintro ⟨q, r, hq, hr, -⟩
    have hlast := congrArg List.getLast? (hq.symm.trans hr)
    simp at hlast
  refine registered_addServerSub ⟨?_, ?_⟩ ?_ ?_ ?_
  · rw [hpatterns]
    intro p hp
    rcases List.mem_append.mp hp with hp | hp
    · exact h.clear.wellFormed p hp
    · rwa [List.mem_singleton.mp hp]
  · rw [hpatterns]
    intro p hp q hq
    rcases List.mem_append.mp hp with hp | hp <;> rcases List.mem_append.mp hq with hq | hq
    · exact h.clear.apart p hp q hq
    · rw [List.mem_singleton.mp hq]
      exact (hapart p hp).1
    · rw [List.mem_singleton.mp hp]
      exact (hapart q hq).2
    · rwa [List.mem_singleton.mp hp, List.mem_singleton.mp hq]
  · rw [hpatterns]
    exact List.mem_append_right _ List.mem_cons_self
  · rw [hpatterns]
    exact fun e he => List.mem_append_left _ (h.inUse e he)
  · rw [hpatterns]
    intro p hp hne
    exact h.covered p ((List.mem_append.mp hp).resolve_right fun heq => hne (List.mem_singleton.mp heq))

theorem mem_patterns_filter (b : Bus) (subject p : String) :
    p ∈ ({ b with subs := b.subs.filter fun e => e.1 ≠ subject } : Bus).patterns ↔ p ∈ b.patterns ∧ p ≠ subject := by
  simp only [patterns, List.mem_map, List.mem_filter, decide_eq_true_eq]
  constructor
  · rintro ⟨e, ⟨he, hne⟩, rfl⟩
    exact ⟨⟨e, he, rfl⟩, hne⟩
  · rintro ⟨⟨e, he, rfl⟩, hne⟩
    exact ⟨e, ⟨he, hne⟩, rfl⟩

theorem registered_unsubscribe (h : b.Registered) : (b.unsubscribe subject handler).Registered := by
  unfold unsubscribe
  split
  · exact h
  dsimp only
  split
  · have hpatterns := mem_patterns_filter b subject
    refine registered_removeServerSub (h.clear.subset fun p hp => ((hpatterns p).mp hp).1) ?_ ?_
    · exact fun e he hne => (hpatterns e).mpr ⟨h.inUse e he, hne⟩
    · exact fun p hp => h.covered p ((hpatterns p).mp hp).1
  · exact h.congr (patterns_setHandlers _ _ _) rfl

def subscriptions (b : Bus) : List (String × List Handler) × List String := (b.subs, b.serverSubs)

theorem subscriptions_connect (b : Bus) : b.connect.subscriptions = b.subscriptions := by
  unfold connect
  split <;> rfl

theorem subscriptions_scheduleRefresh (b : Bus) : b.scheduleRefresh.subscriptions = b.subscriptions := by
  unfold scheduleRefresh
  split <;> rfl

theorem subscriptions_refresh (fetched : Option NatsCred) (b : Bus) :
    (b.refresh fetched).subscriptions = b.subscriptions := by
  cases fetched with
  | none => rfl
  | some cred =>
    unfold refresh
    dsimp only
    split
    · exact (subscriptions_connect _).trans (subscriptions_scheduleRefresh _)
    · exact (subscriptions_connect _).trans (subscriptions_scheduleRefresh _)

theorem subscriptions_frame (subject : String) (b : Bus) : (b.frame subject).subscriptions = b.subscriptions := by
  have hfold : ∀ (l : List WebSocket) (b : Bus),
      (l.foldl (fun b _ => b.onmessage subject) b).subscriptions = b.subscriptions := by
    intro l
    induction l with
    | nil => exact fun _ => rfl
    | cons _ l ih => exact fun b => ih (b.onmessage subject)
  exact hfold _ b

theorem subscriptions_next (h : b.next e = some b') (hsub : ∀ subject handler, e ≠ .subscribe subject handler)
    (hunsub : ∀ subject handler, e ≠ .unsubscribe subject handler) : b'.subscriptions = b.subscriptions := by
  cases step_of_next h with
  | started fetched =>
    cases fetched with
    | none => rfl
    | some cred => exact (subscriptions_connect _).trans (subscriptions_scheduleRefresh _)
  | subscribe subject handler => exact absurd rfl (hsub subject handler)
  | unsubscribe subject handler => exact absurd rfl (hunsub subject handler)
  | publish subject data => exact congrArg₂ Prod.mk (subs_send _ _) (serverSubs_send _ _)
  | opened i => rfl
  | frame subject => exact subscriptions_frame subject b
  | closing i => rfl
  | closed i => rfl
  | reconnectTimer => exact subscriptions_connect _
  | refreshTimer => rfl
  | refreshed fetched => exact subscriptions_refresh fetched _

/-- A pattern is subscribed that is one, and that is apart from all in use. -/
def Orderly (b : Bus) : Event → Prop
  | .subscribe subject _ => WellFormed (tokens subject) ∧ ∀ p ∈ b.patterns, Apart p subject
  | _ => True

theorem registered_next (h : b.Registered) (hok : b.Orderly e) (hnext : b.next e = some b') : b'.Registered := by
  by_cases hsub : ∃ subject handler, e = .subscribe subject handler
  · obtain ⟨subject, handler, rfl⟩ := hsub
    cases hnext
    exact registered_subscribe h hok.1 hok.2
  by_cases hunsub : ∃ subject handler, e = .unsubscribe subject handler
  · obtain ⟨subject, handler, rfl⟩ := hunsub
    cases hnext
    exact registered_unsubscribe h
  · obtain ⟨hsubs, hserver⟩ := Prod.mk.inj (subscriptions_next hnext (fun subject handler heq => hsub ⟨subject, handler, heq⟩)
      fun subject handler heq => hunsub ⟨subject, handler, heq⟩)
    exact h.congr (congrArg (List.map Prod.fst) hsubs) hserver

/-- A handler is registered for the subject. -/
def Awaits (b : Bus) (subject : String) : Prop := ∃ e ∈ b.subs, e.2 ≠ [] ∧ Matches e.1 subject

/-- The server delivers the subject. -/
def Receives (b : Bus) (subject : String) : Prop := ∃ e ∈ b.serverSubs, Matches e subject

theorem Registered.receives (h : b.Registered) (hawaits : b.Awaits subject) : b.Receives subject := by
  obtain ⟨e, he, -, -, hliteral, hmatches⟩ := hawaits
  obtain ⟨f, hf, hcovers⟩ := h.covered e.1 (List.mem_map.mpr ⟨e, he, rfl⟩)
  exact ⟨f, hf, h.clear.wellFormed f (h.inUse f hf), hliteral, covers_trans hcovers hmatches⟩

end Bus

open Bus in
/-- In every run in which no pattern is subscribed beside one that it could be mistaken for, every subject that a handler waits for is one the server sends. -/
theorem subscriptions_kept {es : List Event} {b : Bus} (hrun : Run (Guarded Orderly (Takes next)) init es b) :
    ∀ subject, b.Awaits subject → b.Receives subject := by
  have hinit : init.Registered := ⟨⟨by simp [init, patterns], by simp [init, patterns]⟩, by simp [init], by simp [init, patterns]⟩
  have hregistered := hrun.invariant Registered (fun _ _ _ hs hstep => registered_next hs hstep.1 hstep.2) hinit
  exact fun subject hawaits => hregistered.receives hawaits

theorem subscriptions_kept_telemetry :
    ∃ b, Run (Guarded Bus.Orderly (Takes Bus.next)) Bus.init
        [.subscribe "waypoint.r1.>" 0, .subscribe "waypoint.r1.telemetry.drive" 1, .unsubscribe "waypoint.r1.>" 0] b ∧
      b.serverSubs = ["waypoint.r1.telemetry.drive"] ∧ b.Receives "waypoint.r1.telemetry.drive" := by
  have hrun : ∃ b, Run (Guarded Bus.Orderly (Takes Bus.next)) Bus.init
      [.subscribe "waypoint.r1.>" 0, .subscribe "waypoint.r1.telemetry.drive" 1, .unsubscribe "waypoint.r1.>" 0] b ∧
        b.subs = [("waypoint.r1.telemetry.drive", [1])] ∧ b.serverSubs = ["waypoint.r1.telemetry.drive"] := by
    refine ⟨_, .cons ⟨⟨by decide +kernel, fun p hp => by cases hp⟩, rfl⟩ (.cons ⟨⟨by decide +kernel, ?_⟩, rfl⟩
      (.cons ⟨trivial, rfl⟩ (.nil _))), by decide +kernel, by decide +kernel⟩
    decide +kernel
  obtain ⟨b, hrun, hsubs, hserver⟩ := hrun
  refine ⟨b, hrun, hserver, subscriptions_kept hrun _ ⟨("waypoint.r1.telemetry.drive", [1]), ?_, by decide, by decide +kernel⟩⟩
  rw [hsubs]
  exact List.mem_cons_self

/-- With handlers for `waypoint.r1.*` and then for `waypoint.r1.>`, only the first is registered. -/
theorem rest_pattern_lost :
    ∃ b, Run (Takes Bus.next) Bus.init [.subscribe "waypoint.r1.*" 0, .subscribe "waypoint.r1.>" 1] b ∧
      b.serverSubs = ["waypoint.r1.*"] ∧ b.Awaits "waypoint.r1.telemetry.drive" ∧
      ¬b.Receives "waypoint.r1.telemetry.drive" := by
  have hrun : ∃ b, Run (Takes Bus.next) Bus.init [.subscribe "waypoint.r1.*" 0, .subscribe "waypoint.r1.>" 1] b ∧
      b.subs = [("waypoint.r1.*", [0]), ("waypoint.r1.>", [1])] ∧ b.serverSubs = ["waypoint.r1.*"] :=
    ⟨_, .cons rfl (.cons rfl (.nil _)), by decide +kernel, by decide +kernel⟩
  obtain ⟨b, hrun, hsubs, hserver⟩ := hrun
  refine ⟨b, hrun, hserver, ⟨("waypoint.r1.>", [1]), ?_, by decide, by decide +kernel⟩, ?_⟩
  · rw [hsubs]
    exact List.mem_cons_of_mem _ List.mem_cons_self
  rintro ⟨e, he, hmatches⟩
  rw [hserver] at he
  rw [List.mem_singleton.mp he] at hmatches
  exact absurd hmatches (by decide +kernel)

end Waypoint.Dashboard
