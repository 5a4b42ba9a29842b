import Mathlib.Data.List.Nodup
import Waypoint.Base.Table
import Waypoint.Dashboard.Subscriptions

/-!
# One live socket

A bus that has started has either a socket that is not closed yet, or a timer that will open one: each close event makes a timer, and each timer a socket.
-/

namespace Waypoint.Dashboard

open Base

namespace Bus

/-! ### Sockets and timers -/

/-- What concerns the sockets and the timers of the bus. -/
structure Link where
  ws : Option Nat
  states : List ReadyState
  reconnects : Nat
  cred : Option NatsCred
  refreshTimer : Bool
  starting : Bool
  refreshing : Bool

def link (b : Bus) : Link :=
  ⟨b.ws, b.sockets.map (·.readyState), b.reconnects, b.cred, b.refreshTimer, b.starting, b.refreshing⟩

theorem states_sendOn (i : Nat) (envs : List Envelope) (b : Bus) :
    (b.sendOn i envs).sockets.map (·.readyState) = b.sockets.map (·.readyState) := by
  apply List.ext_getElem?
  intro j
  simp only [sendOn, setSocket, List.getElem?_map, List.getElem?_modify]
  cases b.sockets[j]? with
  | none => rfl
  | some s => split <;> rfl

theorem link_sendOn (i : Nat) (envs : List Envelope) (b : Bus) : (b.sendOn i envs).link = b.link := by
  unfold link
  rw [states_sendOn]
  rfl

theorem link_onopen (i : Nat) (b : Bus) : (b.onopen i).link = b.link :=
  link_sendOn i (b.serverSubs.map Envelope.sub ++ b.queue) b

theorem link_send (env : Envelope) (b : Bus) : (b.send env).link = b.link := by
  unfold send
  split
  · split
    · exact link_sendOn _ _ b
    · rfl
  · rfl

variable {α : Type} {subject : String} {h : Handler} {hs : List Handler} {n : Nat}

theorem link_foldl {f : Bus → α → Bus} (h : ∀ b a, (f b a).link = b.link) (l : List α) (b : Bus) :
    (l.foldl f b).link = b.link := by
  induction l generalizing b with
  | nil => rfl
  | cons a l ih => rw [List.foldl_cons, ih, h]

theorem link_addServerSub (subject : String) (b : Bus) : (b.addServerSub subject).link = b.link := by
  have hdrop : ∀ b e, (dropCovered subject b e).link = b.link := fun b e => by
    unfold dropCovered
    split
    · exact link_send _ _
    · rfl
  unfold addServerSub
  split
  · rfl
  · exact (link_send _ _).trans (link_foldl hdrop b.serverSubs b)

theorem link_removeServerSub (subject : String) (b : Bus) : (b.removeServerSub subject).link = b.link := by
  have hrestore : ∀ b p, (restore b p).link = b.link := fun b p => by
    unfold restore
    split
    · rfl
    · exact link_send _ _
  unfold removeServerSub
  split
  · exact (link_foldl hrestore _ _).trans (link_send _ _)
  · rfl

theorem link_subscribe (subject : String) (handler : Handler) (b : Bus) : (b.subscribe subject handler).link = b.link := by
  unfold subscribe
  split
  · rfl
  · exact link_addServerSub subject _

theorem link_unsubscribe (subject : String) (handler : Handler) (b : Bus) :
    (b.unsubscribe subject handler).link = b.link := by
  unfold unsubscribe
  split
  · rfl
  dsimp only
  split
  · exact link_removeServerSub subject _
  · rfl

theorem link_frame (subject : String) (b : Bus) : (b.frame subject).link = b.link :=
  link_foldl (f := fun b _ => b.onmessage subject) (fun _ _ => rfl) _ b

theorem stateOf_eq (b : Bus) (i : Nat) : b.stateOf i = b.link.states[i]? := by
  rw [stateOf, link, List.getElem?_map]

variable {b : Bus} {i : Nat} {p : String} {r : ReadyState}

theorem stateOf_congr {b' : Bus} (h : b'.link = b.link) (i : Nat) : b'.stateOf i = b.stateOf i := by
  rw [stateOf_eq, h, stateOf_eq]

theorem stateOf_setSocket (i j : Nat) (f : WebSocket → WebSocket) (b : Bus) :
    (b.setSocket i f).stateOf j = if i = j then b.sockets[j]?.map fun s => (f s).readyState else b.stateOf j := by
  simp only [stateOf, setSocket, List.getElem?_modify]
  cases b.sockets[j]? with
  | none => split <;> rfl
  | some s => split <;> rfl

theorem stateOf_setState_self (i : Nat) (r : ReadyState) (h : b.stateOf i ≠ none) :
    (b.setState i r).stateOf i = some r := by
  rw [setState, stateOf_setSocket, if_pos rfl]
  cases hs : b.sockets[i]? with
  | none =>
    rw [stateOf, hs] at h
    exact absurd rfl h
  | some s => rfl

theorem stateOf_setState_of_ne {j : Nat} (h : i ≠ j) (r : ReadyState) (b : Bus) : (b.setState i r).stateOf j = b.stateOf j := by
  rw [setState, stateOf_setSocket, if_neg h]

theorem connect_eq (h : b.cred ≠ none) :
    b.connect = { b with sockets := b.sockets ++ [{}], ws := some b.sockets.length } := by
  rw [connect, if_neg (by simpa using h)]

theorem stateOf_connect (h : b.cred ≠ none) (j : Nat) :
    b.connect.stateOf j = if j = b.sockets.length then some .connecting else b.stateOf j := by
  rw [connect_eq h, stateOf, stateOf]
  rcases Nat.lt_trichotomy j b.sockets.length with hlt | rfl | hgt
  · rw [List.getElem?_append_left hlt, if_neg (Nat.ne_of_lt hlt)]
  · simp
  · rw [if_neg (Nat.ne_of_gt hgt), List.getElem?_eq_none (by rw [List.length_append]; exact hgt), List.getElem?_eq_none (Nat.le_of_lt hgt)]

/-! ### Dispatch -/

/-- Each pattern, and each handler of it, stands once. -/
structure Keyed (b : Bus) : Prop where
  patterns : b.patterns.Nodup
  handlers : ∀ e ∈ b.subs, e.2.Nodup

theorem eq_of_matchTokens {p s : List String} (hp : ∀ t ∈ p, t ≠ "*" ∧ t ≠ ">") (h : matchTokens p s = true) : p = s := by
  induction p generalizing s with
  | nil =>
    rw [matchTokens, List.isEmpty_iff] at h
    exact h.symm
  | cons t p ih =>
    rw [List.forall_mem_cons] at hp
    cases s with
    | nil =>
      rw [matchTokens_nil] at h
      cases h
    | cons u s =>
      rw [matchTokens_cons, if_neg hp.1.2, if_neg hp.1.1, Bool.and_eq_true, decide_eq_true_eq] at h
      rw [h.1, ih hp.2 h.2]

theorem eq_of_matchesSubject {s : String} (hp : (p.toList.any fun c => c = '*' || c = '>') = false)
    (h : matchesSubject p s = true) : p = s := by
  rw [matchesSubject, Bool.or_eq_true, decide_eq_true_eq] at h
  refine h.elim id fun hmatch => ?_
  have hchar : ∀ c ∈ p.toList, c ≠ '*' ∧ c ≠ '>' := by simpa using hp
  have htokens : tokens p = tokens s := by
    refine eq_of_matchTokens (fun t ht => ⟨?_, ?_⟩) hmatch
    · rintro rfl
      exact (hchar '*' (mem_of_mem_fields ht (by decide))).1 rfl
    · rintro rfl
      exact (hchar '>' (mem_of_mem_fields ht (by decide))).2 rfl
  have hjoin : ∀ x : String, String.intercalate "." (tokens x) = x := fun x => intercalate_fields x rfl
  rw [← hjoin p, htokens, hjoin s]

/-- What the second loop of the dispatch makes of one entry. -/
def wildcard (subject : String) (e : String × List Handler) : List (String × Handler) :=
  if e.1 ≠ subject ∧ (e.1.toList.any fun c => c = '*' || c = '>') = true ∧ matchesSubject e.1 subject = true then
    e.2.map fun h => (e.1, h)
  else []

theorem dispatch_eq (b : Bus) (subject : String) :
    b.dispatch subject =
      (((b.subs.lookup subject).getD []).map fun h => (subject, h)) ++ b.subs.flatMap (wildcard subject) := by
  refine congrArg _ (congrArg (b.subs.flatMap ·) (funext fun e => ?_))
  unfold wildcard
  by_cases heq : e.1 = subject
  · rw [if_pos heq, if_neg fun hall => hall.1 heq]
  · cases hwild : e.1.toList.any fun c => c = '*' || c = '>' with
    | false => simp [heq]
    | true => cases hmatch : matchesSubject e.1 subject <;> simp [heq]

theorem mem_wildcard {e : String × List Handler} :
    (p, h) ∈ wildcard subject e ↔
      p = e.1 ∧ h ∈ e.2 ∧ p ≠ subject ∧ (p.toList.any fun c => c = '*' || c = '>') = true ∧ matchesSubject p subject = true := by
  unfold wildcard
  split
  · rename_i hall
    rw [List.mem_map]
    constructor
    · rintro ⟨h', hh', heq⟩
      cases heq
      exact ⟨rfl, hh', hall⟩
    · rintro ⟨rfl, hh, -⟩
      exact ⟨h, hh, rfl⟩
  · rename_i hnot
    refine iff_of_false (List.not_mem_nil) ?_
    rintro ⟨rfl, -, hall⟩
    exact hnot hall

theorem mem_dispatch (hb : b.Keyed) {p : String} :
    (p, h) ∈ b.dispatch subject ↔ ∃ hs, (p, hs) ∈ b.subs ∧ h ∈ hs ∧ matchesSubject p subject = true := by
  rw [dispatch_eq, List.mem_append, List.mem_flatMap]
  constructor
  · rintro (hexact | ⟨e, he, hwild⟩)
    · obtain ⟨h', hh', heq⟩ := List.mem_map.mp hexact
      cases heq
      cases hlookup : b.subs.lookup subject with
      | none =>
        rw [hlookup] at hh'
        cases hh'
      | some hs =>
        rw [hlookup] at hh'
        exact ⟨hs, (lookup_eq_some_iff_mem hb.patterns).mp hlookup, hh', by simp [matchesSubject]⟩
    · obtain ⟨rfl, hh, -, -, hmatch⟩ := mem_wildcard.mp hwild
      exact ⟨e.2, he, hh, hmatch⟩
  · rintro ⟨hs, he, hh, hmatch⟩
    by_cases heq : p = subject
    · rw [heq] at he ⊢
      exact .inl (List.mem_map.mpr ⟨h, by rw [(lookup_eq_some_iff_mem hb.patterns).mpr he]; exact hh, rfl⟩)
    have hwild : (p.toList.any fun c => c = '*' || c = '>') = true := by
      by_contra hnone
      exact heq (eq_of_matchesSubject (Bool.eq_false_iff.mpr hnone) hmatch)
    exact .inr ⟨(p, hs), he, mem_wildcard.mpr ⟨rfl, hh, heq, hwild, hmatch⟩⟩

theorem nodup_dispatch (hb : b.Keyed) (subject : String) : (b.dispatch subject).Nodup := by
  have hmap : ∀ (p : String) (hs : List Handler), hs.Nodup → (hs.map fun h => (p, h)).Nodup := fun p hs hnodup =>
    List.Nodup.map (fun _ _ heq => (Prod.mk.inj heq).2) hnodup
  rw [dispatch_eq]
  refine List.nodup_append'.mpr ⟨?_, List.nodup_flatMap.mpr ⟨fun e he => ?_, ?_⟩, ?_⟩
  · refine hmap subject _ ?_
    cases hlookup : b.subs.lookup subject with
    | none => exact List.nodup_nil
    | some hs => exact hb.handlers _ ((lookup_eq_some_iff_mem hb.patterns).mp hlookup)
  · unfold wildcard
    split
    · exact hmap e.1 e.2 (hb.handlers e he)
    · exact List.nodup_nil
  · have hkeys : b.subs.Pairwise fun e f => e.1 ≠ f.1 := List.pairwise_map.mp hb.patterns
    refine hkeys.imp fun hne x hx hx' => ?_
    exact hne ((mem_wildcard.mp hx).1.symm.trans (mem_wildcard.mp hx').1)
  · intro x hx hx'
    obtain ⟨h, -, rfl⟩ := List.mem_map.mp hx
    obtain ⟨e, -, hx'⟩ := List.mem_flatMap.mp hx'
    exact (mem_wildcard.mp hx').2.2.1 rfl

/-! ### A socket or a timer -/

/-- A bus that has its credential has one socket that is not closed yet, or one timer that will make one. -/
structure Single (b : Bus) : Prop where
  fresh : b.cred = none →
    b.sockets = [] ∧ b.ws = none ∧ b.reconnects = 0 ∧ b.refreshTimer = false ∧ b.refreshing = false
  started : b.cred ≠ none → b.starting = false
  current : ∀ i r, b.stateOf i = some r → r ≠ .closed → b.ws = some i
  held : ∀ i, b.ws = some i → ∃ r, b.stateOf i = some r ∧ r ≠ .closed
  turn : b.cred ≠ none → (b.ws ≠ none ∧ b.reconnects = 0) ∨ (b.ws = none ∧ b.reconnects = 1)

variable {b b' : Bus} {e : Event}

theorem Single.congr (h : b.Single) (hlink : b'.link = b.link) : b'.Single := by
  obtain ⟨hws, hstates, hreconnects, hcred, hrefreshTimer, hstarting, hrefreshing⟩ := Link.mk.inj hlink
  have hsockets : b.sockets = [] → b'.sockets = [] := fun hnil => by
    rw [hnil] at hstates
    exact List.map_eq_nil_iff.mp hstates
  refine ⟨fun hnone => ?_, ?_, ?_, ?_, ?_⟩
  · rw [hws, hreconnects, hrefreshTimer, hrefreshing]
    exact (h.fresh (hcred ▸ hnone)).imp_left hsockets
  · rw [hcred, hstarting]
    exact h.started
  · intro i r
    rw [stateOf_congr hlink, hws]
    exact h.current i r
  · intro i
    rw [stateOf_congr hlink, hws]
    exact h.held i
  · rw [hcred, hws, hreconnects]
    exact h.turn

theorem single_init : init.Single where
  fresh _ := ⟨rfl, rfl, rfl, rfl, rfl⟩
  started h := absurd rfl h
  current i r h := by cases h
  held i h := by cases h
  turn h := absurd rfl h

theorem single_connect (hcred : b.cred ≠ none) (hstarting : b.starting = false)
    (hclosed : ∀ i r, b.stateOf i = some r → r = .closed) (htimers : b.reconnects = 0) : b.connect.Single := by
  have hstate := stateOf_connect hcred
  have heq := connect_eq hcred
  refine ⟨fun hnone => ?_, fun _ => ?_, fun i r hi hr => ?_, fun i hi => ?_, fun _ => .inl ?_⟩
  · rw [heq] at hnone
    exact absurd hnone hcred
  · rw [heq]
    exact hstarting
  · rw [hstate] at hi
    split at hi
    · rename_i hnew
      rw [heq, hnew]
    · exact absurd (hclosed i r hi) hr
  · rw [heq] at hi
    cases hi
    exact ⟨.connecting, by rw [hstate, if_pos rfl], by simp⟩
  · rw [heq]
    exact ⟨by simp, htimers⟩

theorem single_setState (h : b.Single) {r' : ReadyState} (hi : b.stateOf i = some r) (hr : r ≠ .closed)
    (hr' : r' ≠ .closed) : (b.setState i r').Single := by
  have hself := stateOf_setState_self i r' (b := b) (by rw [hi]; simp)
  have hws := h.current i r hi hr
  refine ⟨fun hnone => ?_, h.started, fun j s hj hs => ?_, fun j hj => ?_, h.turn⟩
  · rw [(h.fresh hnone).2.1] at hws
    cases hws
  · by_cases hij : i = j
    · exact hij ▸ hws
    · rw [stateOf_setState_of_ne hij] at hj
      exact h.current j s hj hs
  · have hij : i = j := Option.some.inj (hws.symm.trans hj)
    exact ⟨r', hij ▸ hself, hr'⟩

theorem single_start (h : b.Single) (hstarting : b.starting = true) (fetched : Option NatsCred) :
    (start fetched { b with starting := false }).Single := by
  have hnone : b.cred = none := by
    by_contra hcred
    rw [h.started hcred] at hstarting
    cases hstarting
  obtain ⟨hsockets, -, htimers, -⟩ := h.fresh hnone
  cases fetched with
  | none => exact { h with started := fun _ => rfl }
  | some cred =>
    refine single_connect (b := scheduleRefresh { b with starting := false, cred := some cred }) (by simp [scheduleRefresh])
      rfl (fun i r hi => ?_) htimers
    rw [hsockets] at hi
    cases hi

theorem single_closed (h : b.Single) (hi : b.stateOf i = some r) (hr : r ≠ .closed) :
    (b.setState i .closed).onclose.Single := by
  have hself := stateOf_setState_self i .closed (b := b) (by rw [hi]; simp)
  have hws := h.current i r hi hr
  refine ⟨fun hnone => ?_, h.started, fun j s hj hs => ?_, fun j hj => (by cases hj), fun hcred => .inr ⟨rfl, ?_⟩⟩
  · rw [(h.fresh hnone).2.1] at hws
    cases hws
  · exfalso
    by_cases hij : i = j
    · have hstate : (b.setState i .closed).stateOf j = some s := hj
      rw [← hij, hself] at hstate
      exact hs (Option.some.inj hstate).symm
    · have hstate : (b.setState i .closed).stateOf j = some s := hj
      rw [stateOf_setState_of_ne hij] at hstate
      exact hij (Option.some.inj (hws.symm.trans (h.current j s hstate hs)))
  · rcases h.turn hcred with ⟨-, htimers⟩ | ⟨hnone, -⟩
    · change b.reconnects + 1 = 1
      rw [htimers]
    · rw [hnone] at hws
      cases hws

/-- Any event but a refreshed credential. -/
def Allowed (e : Event) : Prop := ∀ cred, e ≠ .refreshed (some cred)

theorem single_next (h : b.Single) (hallowed : Allowed e) (hnext : b.next e = some b') : b'.Single := by
  cases step_of_next hnext with
  | started fetched hstarting => exact single_start h hstarting fetched
  | subscribe subject handler => exact h.congr (link_subscribe subject handler b)
  | unsubscribe subject handler => exact h.congr (link_unsubscribe subject handler b)
  | publish subject data => exact h.congr (link_send _ b)
  | opened i hstate =>
    have hopen : (b.setState i .open).Single := single_setState h hstate (by simp) (by simp)
    exact hopen.congr (link_onopen i _)
  | frame subject => exact h.congr (link_frame subject b)
  | closing i r hstate hlive =>
    rcases hlive with rfl | rfl
    · exact single_setState h hstate (by simp) (by simp)
    · exact single_setState h hstate (by simp) (by simp)
  | closed i r hstate hnot => exact single_closed h hstate hnot
  | reconnectTimer htimer =>
    have hcred : b.cred ≠ none := fun hnone => Nat.ne_of_gt htimer (h.fresh hnone).2.2.1
    rcases h.turn hcred with ⟨-, htimers⟩ | ⟨hnone, htimers⟩
    · exact absurd htimers (Nat.ne_of_gt htimer)
    refine single_connect (b := { b with reconnects := b.reconnects - 1 }) hcred (h.started hcred) (fun i r hi => ?_) ?_
    · by_contra hr
      rw [h.current i r hi hr] at hnone
      cases hnone
    · rw [htimers]
  | refreshTimer htimer =>
    refine { h with fresh := fun hnone => ?_ }
    rw [(h.fresh hnone).2.2.2.1] at htimer
    cases htimer
  | refreshed fetched hrefreshing =>
    cases fetched with
    | none =>
      refine { h with fresh := fun hnone => ?_ }
      rw [(h.fresh hnone).2.2.2.2] at hrefreshing
      cases hrefreshing
    | some cred => exact absurd rfl (hallowed cred)

theorem nodup_subscribe_handlers (h : hs.Nodup) (handler : Handler) :
    (if handler ∈ hs then hs else hs ++ [handler]).Nodup := by
  split
  · exact h
  · rename_i hnot
    exact List.nodup_append'.mpr ⟨h, List.nodup_singleton _, List.disjoint_singleton.mpr hnot⟩

theorem keyed_setHandlers (h : b.Keyed) (hnodup : hs.Nodup) (subject : String) :
    (b.setHandlers subject hs).Keyed := by
  refine ⟨patterns_setHandlers subject hs b ▸ h.patterns, fun e he => ?_⟩
  obtain ⟨f, hf, rfl⟩ := List.mem_map.mp he
  split
  · exact hnodup
  · exact h.handlers f hf

theorem keyed_subscribe (h : b.Keyed) (subject : String) (handler : Handler) : (b.subscribe subject handler).Keyed := by
  unfold subscribe
  cases hlookup : b.subs.lookup subject with
  | some hs =>
    have hmem := (lookup_eq_some_iff_mem h.patterns).mp hlookup
    exact keyed_setHandlers h (nodup_subscribe_handlers (h.handlers _ hmem) handler) subject
  | none =>
    have hnew : subject ∉ b.patterns := by
      intro hmem
      obtain ⟨e, he, rfl⟩ := List.mem_map.mp hmem
      rw [(lookup_eq_some_iff_mem h.patterns).mpr he] at hlookup
      cases hlookup
    have hsubs := subs_addServerSub subject { b with subs := b.subs ++ [(subject, [handler])] }
    refine ⟨?_, ?_⟩
    · rw [patterns, hsubs, List.map_append]
      exact List.nodup_append'.mpr ⟨h.patterns, List.nodup_singleton _, List.disjoint_singleton.mpr hnew⟩
    rw [hsubs]
    intro e he
    rcases List.mem_append.mp he with he | he
    · exact h.handlers e he
    · rw [List.mem_singleton.mp he]
      exact List.nodup_singleton _

theorem keyed_unsubscribe (h : b.Keyed) (subject : String) (handler : Handler) : (b.unsubscribe subject handler).Keyed := by
  unfold unsubscribe
  cases hlookup : b.subs.lookup subject with
  | none => exact h
  | some hs =>
    dsimp only
    split
    · have hsubs := subs_removeServerSub subject { b with subs := b.subs.filter fun e => e.1 ≠ subject }
      refine ⟨?_, ?_⟩
      · rw [patterns, hsubs]
        exact h.patterns.sublist (List.filter_sublist.map Prod.fst)
      · rw [hsubs]
        exact fun e he => h.handlers e (List.mem_filter.mp he).1
    · have hmem := (lookup_eq_some_iff_mem h.patterns).mp hlookup
      exact keyed_setHandlers h ((h.handlers _ hmem).filter _) subject

theorem keyed_next (h : b.Keyed) (hnext : b.next e = some b') : b'.Keyed := by
  by_cases hsub : ∃ subject handler, e = .subscribe subject handler
  · obtain ⟨subject, handler, rfl⟩ := hsub
    cases hnext
    exact keyed_subscribe h subject handler
  by_cases hunsub : ∃ subject handler, e = .unsubscribe subject handler
  · obtain ⟨subject, handler, rfl⟩ := hunsub
    cases hnext
    exact keyed_unsubscribe h subject handler
  · obtain ⟨hsubs, -⟩ := Prod.mk.inj (subscriptions_next hnext (fun subject handler heq => hsub ⟨subject, handler, heq⟩)
      fun subject handler heq => hunsub ⟨subject, handler, heq⟩)
    exact ⟨by rw [patterns, hsubs]; exact h.patterns, by rw [hsubs]; exact h.handlers⟩

/-! ### One live socket -/

def Live (b : Bus) (i : Nat) : Prop := b.stateOf i = some .connecting ∨ b.stateOf i = some .open

/-- One live socket at most, and an open one is the current one. -/
structure OneSocket (b : Bus) : Prop where
  unique : ∀ i j, b.Live i → b.Live j → i = j
  current : ∀ i, b.stateOf i = some .open → b.ws = some i

theorem Single.oneSocket (h : b.Single) : b.OneSocket := by
  have hws : ∀ i, b.Live i → b.ws = some i := by
    rintro i (hi | hi)
    · exact h.current i _ hi (by simp)
    · exact h.current i _ hi (by simp)
  refine ⟨fun i j hi hj => ?_, fun i hi => hws i (.inr hi)⟩
  exact Option.some.inj ((hws i hi).symm.trans (hws j hj))

theorem filter_eq_singleton {p : α → Bool} {l : List α} {x : α} (hi : l[i]? = some x) (hx : p x = true)
    (honly : ∀ j y, l[j]? = some y → p y = true → j = i) : l.filter p = [x] := by
  induction l generalizing i with
  | nil => cases hi
  | cons a l ih =>
    cases i with
    | zero =>
      cases hi
      have hrest : l.filter p = [] := by
        rw [List.filter_eq_nil_iff]
        intro y hy hpy
        obtain ⟨j, hj⟩ := List.mem_iff_getElem?.mp hy
        exact absurd (honly (j + 1) y hj hpy) (by omega)
      rw [List.filter_cons_of_pos hx, hrest]
    | succ i =>
      have ha : ¬p a = true := fun ha => absurd (honly 0 a rfl ha) (by omega)
      rw [List.filter_cons_of_neg ha]
      exact ih hi fun j y hj hy => Nat.succ.inj (honly (j + 1) y hj hy)

theorem OneSocket.frame_eq (h : b.OneSocket) (hi : b.stateOf i = some .open) (subject : String) :
    b.frame subject = b.onmessage subject := by
  obtain ⟨s, hs, hopen⟩ := Option.map_eq_some_iff.mp hi
  have hfilter : b.sockets.filter (·.readyState = .open) = [s] := by
    refine filter_eq_singleton hs (by simpa using hopen) fun j t ht hj => ?_
    refine h.unique j i (.inr ?_) (.inr hi)
    rw [stateOf, ht]
    exact congrArg some (by simpa using hj)
  rw [frame, hfilter]
  rfl

theorem OneSocket.publish_eq (h : b.OneSocket) (hi : b.stateOf i = some .open) (subject : String)
    (data : List UInt8) : b.publish subject data = b.sendOn i [.pub subject data] := by
  have hopen : b.isOpen i = true := by
    rw [isOpen, decide_eq_true_eq]
    exact hi
  rw [publish, send, h.current i hi]
  dsimp only
  rw [if_pos hopen]

/-! ### A refreshed credential -/

theorem stateOf_close_self (hr : b.stateOf i = some r) (hopen : r ≠ .closed) :
    (b.close i).stateOf i = some .closing := by
  obtain ⟨s, hs, rfl⟩ := Option.map_eq_some_iff.mp hr
  rw [close, stateOf_setSocket, if_pos rfl, hs, Option.map_some, if_neg hopen]

theorem taken_by_close (hi : b.stateOf i = some .closing) (hn : b.stateOf n = some .connecting) :
    ∃ es b', Run (Guarded (fun _ e => Allowed e) (Takes next)) b es b' ∧ ¬b'.OneSocket := by
  have hne : i ≠ n := by
    rintro rfl
    cases hi.symm.trans hn
  let b₁ := (b.setState i .closed).onclose
  have hclosed : b.next (.closed i) = some b₁ := by
    rw [next, hi, if_pos (by simp)]
  have hn₁ : b₁.stateOf n = some .connecting := (stateOf_setState_of_ne hne .closed b).trans hn
  have hopened : b₁.next (.opened n) = some ((b₁.setState n .open).onopen n) := by
    rw [next, if_pos hn₁]
  refine ⟨[.closed i, .opened n], _, .cons ⟨fun _ h => (by cases h), hclosed⟩ (.cons ⟨fun _ h => (by cases h), hopened⟩ (.nil _)), fun hone => ?_⟩
  have hopen : ((b₁.setState n .open).onopen n).stateOf n = some .open := by
    rw [stateOf_congr (link_onopen n _)]
    exact stateOf_setState_self n .open (by rw [hn₁]; simp)
  cases hone.current n hopen

theorem doubled_by_timer (hcred : b.cred ≠ none) (hn : b.stateOf n = some .connecting) (htimer : 0 < b.reconnects) :
    ∃ es b', Run (Guarded (fun _ e => Allowed e) (Takes next)) b es b' ∧ ¬b'.OneSocket := by
  let b₁ := { b with reconnects := b.reconnects - 1 }
  have hne : n ≠ b.sockets.length := by
    rintro rfl
    rw [stateOf, List.getElem?_eq_none (Nat.le_refl _)] at hn
    cases hn
  have hfired : b.next .reconnectTimer = some b₁.connect := by
    rw [next, if_pos htimer]
  have hstate := stateOf_connect (b := b₁) hcred
  refine ⟨[.reconnectTimer], _, .cons ⟨fun _ h => (by cases h), hfired⟩ (.nil _), fun hone => hne ?_⟩
  refine hone.unique n b.sockets.length (.inl ?_) (.inl ?_)
  · rw [hstate, if_neg hne]
    exact hn
  · rw [hstate, if_pos rfl]

/-- Whatever a refreshed credential finds, some run from there has two live sockets, or an open one that is not the current one. -/
theorem refreshed_breaks (h : b.Single) {cred : NatsCred} (hnext : b.next (.refreshed (some cred)) = some b') :
    ∃ es b'', Run (Guarded (fun _ e => Allowed e) (Takes next)) b' es b'' ∧ ¬b''.OneSocket := by
  obtain ⟨hrefreshing, hrefreshed⟩ := Option.ite_none_right_eq_some.mp hnext
  have hcred : b.cred ≠ none := fun hnone => by
    rw [(h.fresh hnone).2.2.2.2] at hrefreshing
    cases hrefreshing
  let b₁ := scheduleRefresh { b with refreshing := false, cred := some cred }
  rcases hws : b.ws with _ | i
  · have hb' : b' = b₁.connect := by
      rw [← Option.some.inj hrefreshed, refresh]
      rw [show b₁.ws = none from hws]
    have hstate := stateOf_connect (b := b₁) (by simp [b₁, scheduleRefresh]) b₁.sockets.length
    rw [if_pos rfl, ← hb'] at hstate
    have hconnect := connect_eq (b := b₁) (by simp [b₁, scheduleRefresh])
    refine doubled_by_timer ?_ hstate ?_
    · rw [hb', hconnect]
      simp [b₁, scheduleRefresh]
    rw [hb', hconnect]
    rcases h.turn hcred with ⟨hsome, -⟩ | ⟨-, htimers⟩
    · exact absurd hws hsome
    · change 0 < b.reconnects
      rw [htimers]
      exact Nat.one_pos
  · obtain ⟨r, hr, hopen⟩ := h.held i hws
    let b₂ := { b₁.close i with ws := none }
    have hb' : b' = b₂.connect := by
      rw [← Option.some.inj hrefreshed, refresh]
      rw [show b₁.ws = some i from hws]
    have hstate := stateOf_connect (b := b₂) (by simp [b₂, b₁, scheduleRefresh, close, setSocket])
    rw [← hb'] at hstate
    have hclosing : b₂.stateOf i = some .closing := stateOf_close_self (b := b₁) hr hopen
    have hne : i ≠ b₂.sockets.length := fun heq => by
      rw [stateOf, List.getElem?_eq_none (Nat.le_of_eq heq.symm)] at hclosing
      cases hclosing
    refine taken_by_close (i := i) (n := b₂.sockets.length) ?_ ?_
    · rw [hstate, if_neg hne, hclosing]
    · rw [hstate, if_pos rfl]

end Bus

open Bus in
/-- In every run without a refreshed credential there is one live socket at most, an open one is the current one, what is published then is sent on it at once, and a frame is handed once to each handler that it matches. A refreshed credential always leaves a state from which this fails. -/
theorem one_live_socket {es : List Event} {b : Bus} (hrun : Run (Guarded (fun _ e => Allowed e) (Takes next)) init es b) :
    b.OneSocket ∧
      (∀ i, b.stateOf i = some .open →
        (∀ subject data, b.publish subject data = b.sendOn i [.pub subject data]) ∧
        ∀ subject, (b.frame subject).calls = b.calls ++ b.dispatch subject ∧ (b.dispatch subject).Nodup ∧
          ∀ p h, (p, h) ∈ b.dispatch subject ↔ ∃ hs, (p, hs) ∈ b.subs ∧ h ∈ hs ∧ matchesSubject p subject = true) ∧
      ∀ e b', b.next e = some b' →
        (Allowed e ↔ ∀ es' b'', Run (Guarded (fun _ e => Allowed e) (Takes next)) b' es' b'' → b''.OneSocket) := by
  have hsingle : ∀ {b₀ es b}, b₀.Single → Run (Guarded (fun _ e => Allowed e) (Takes next)) b₀ es b → b.Single :=
    fun h₀ hrun => hrun.invariant Single (fun _ _ _ hs hstep => single_next hs hstep.1 hstep.2) h₀
  have hkeyed : b.Keyed := hrun.invariant Keyed (fun _ _ _ hs hstep => keyed_next hs hstep.2) ⟨by simp [init, patterns], by simp [init]⟩
  have hb := hsingle single_init hrun
  refine ⟨hb.oneSocket, fun i hi => ⟨hb.oneSocket.publish_eq hi, fun subject => ⟨?_, nodup_dispatch hkeyed subject, fun p h => mem_dispatch hkeyed⟩⟩, ?_⟩
  · rw [hb.oneSocket.frame_eq hi]
    rfl
  intro e b' hnext
  constructor
  · exact fun hallowed es' b'' hrun' => (hsingle (single_next hb hallowed hnext) hrun').oneSocket
  · rintro hall cred rfl
    obtain ⟨es', b'', hrun', hbroken⟩ := refreshed_breaks hb hnext
    exact hbroken (hall es' b'' hrun')

theorem one_live_socket_reconnected :
    ∃ b, Run (Guarded (fun _ e => Bus.Allowed e) (Takes Bus.next)) Bus.init
        [.started (some ⟨"jwt", "seed", 3600, "wss://proxy/nats"⟩), .subscribe "waypoint.r1.>" 0, .opened 0, .closed 0,
          .reconnectTimer, .opened 1] b ∧
      b.OneSocket ∧ b.stateOf 1 = some .open ∧
      b.publish "waypoint.r1.cmd.estop" [] = b.sendOn 1 [.pub "waypoint.r1.cmd.estop" []] ∧
      (b.frame "waypoint.r1.telemetry.drive").calls = [("waypoint.r1.>", 0)] := by
  have hrun : ∃ b, Run (Guarded (fun _ e => Bus.Allowed e) (Takes Bus.next)) Bus.init
      [.started (some ⟨"jwt", "seed", 3600, "wss://proxy/nats"⟩), .subscribe "waypoint.r1.>" 0, .opened 0, .closed 0,
        .reconnectTimer, .opened 1] b ∧
      b.stateOf 1 = some .open ∧ b.calls = [] ∧ b.dispatch "waypoint.r1.telemetry.drive" = [("waypoint.r1.>", 0)] :=
    ⟨_, .cons ⟨nofun, rfl⟩ (.cons ⟨nofun, rfl⟩ (.cons ⟨nofun, rfl⟩ (.cons ⟨nofun, rfl⟩ (.cons ⟨nofun, rfl⟩ (.cons ⟨nofun, rfl⟩
      (.nil _)))))), by decide +kernel, by decide +kernel, by decide +kernel⟩
  obtain ⟨b, hrun, hopen, hcalls, hdispatch⟩ := hrun
  obtain ⟨hone, hrest, -⟩ := one_live_socket hrun
  obtain ⟨hpublish, hframe⟩ := hrest 1 hopen
  refine ⟨b, hrun, hone, hopen, hpublish _ _, ?_⟩
  rw [(hframe _).1, hcalls, hdispatch]
  rfl

/-- The socket of the first credential closes after that of the second was made: the second is open and not the current one, an E-stop is queued, and the timer opens a third, on which every frame is handed out again. -/
theorem second_socket_after_refresh :
    ∃ b b' b'', Run (Takes Bus.next) Bus.init
        [.started (some ⟨"jwt", "seed", 3600, "wss://proxy/nats"⟩), .subscribe "waypoint.r1.>" 0, .opened 0, .refreshTimer,
          .refreshed (some ⟨"jwt2", "seed2", 7200, "wss://proxy/nats"⟩), .closed 0, .opened 1] b ∧
      b.stateOf 1 = some .open ∧ b.ws = none ∧
      (b.publish "waypoint.r1.cmd.estop" []).queue = [.pub "waypoint.r1.cmd.estop" []] ∧
      Run (Takes Bus.next) b [.reconnectTimer] b' ∧ b'.stateOf 1 = some .open ∧ b'.stateOf 2 = some .connecting ∧
      Run (Takes Bus.next) b' [.opened 2, .frame "waypoint.r1.telemetry.drive"] b'' ∧
      b''.calls = [("waypoint.r1.>", 0), ("waypoint.r1.>", 0)] :=
  ⟨_, _, _, .cons rfl (.cons rfl (.cons rfl (.cons rfl (.cons rfl (.cons rfl (.cons rfl (.nil _))))))), by decide +kernel,
    by decide +kernel, by decide +kernel, .cons rfl (.nil _), by decide +kernel, by decide +kernel,
    .cons rfl (.cons rfl (.nil _)), by decide +kernel⟩

end Waypoint.Dashboard
