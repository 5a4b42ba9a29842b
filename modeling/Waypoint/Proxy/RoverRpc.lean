import Mathlib.Data.List.Nodup

/-!
# Rover RPC responders

The pool keeps one connection for each rover and replaces one that has closed. The dispatcher keeps the subscriptions it made for a rover, and takes an entry for done.
-/

namespace Waypoint.Proxy

open Function

variable {η : Type}

structure Subscription (η : Type) where
  id : Nat
  conn : Nat
  roverID : String
  handler : η

/-- The pool and the dispatcher, and the subscriptions that the clients hold. Connections and subscriptions are numbered as they are made. -/
structure RoverRpc (η : Type) where
  conns : String → Option Nat := fun _ => none
  opened : Nat := 0
  closed : List Nat := []
  subs : String → Option (List (Subscription η)) := fun _ => none
  active : List (Subscription η) := []
  issued : Nat := 0

namespace RoverRpc

def dial (roverID : String) (s : RoverRpc η) : RoverRpc η :=
  { s with conns := update s.conns roverID (some s.opened), opened := s.opened + 1 }

/-- `Pool.Conn`; `dials` says whether minting and connecting succeed, if they are tried. -/
def conn (roverID : String) (dials : Bool) (s : RoverRpc η) : RoverRpc η × Option Nat :=
  match (s.conns roverID).filter (· ∉ s.closed) with
  | some c => (s, some c)
  | none => if dials then (s.dial roverID, some s.opened) else (s, none)

/-- The connection closes by itself, and stays in the pool. -/
def connCloses (roverID : String) (s : RoverRpc η) : RoverRpc η :=
  { s with closed := s.closed ++ (s.conns roverID).toList }

def evict (roverID : String) (s : RoverRpc η) : RoverRpc η :=
  { s.connCloses roverID with conns := update s.conns roverID none }

def subscribe (c : Nat) (roverID : String) (h : η) (s : RoverRpc η) : RoverRpc η :=
  { s with issued := s.issued + 1, active := s.active ++ [⟨s.issued, c, roverID, h⟩] }

def unsubscribe (subs : List (Subscription η)) (s : RoverRpc η) : RoverRpc η :=
  { s with active := s.active.filter fun x => x.id ∉ subs.map (·.id) }

/-- The loop over the handlers. `accepts` says which calls of `Subscribe` succeed; one that fails takes back those before it. -/
def subscribeAll (c : Nat) (roverID : String) (accepts : Nat → Bool) (subs : List (Subscription η)) :
    List η → RoverRpc η → RoverRpc η × Option (List (Subscription η))
  | [], s => (s, some subs)
  | h :: handlers, s =>
    if accepts subs.length then
      subscribeAll c roverID accepts (subs ++ [⟨s.issued, c, roverID, h⟩]) handlers (s.subscribe c roverID h)
    else (s.unsubscribe subs, none)

structure Outcome where
  dials : Bool
  accepts : Nat → Bool

def ensure (handlers : List η) (roverID : String) (o : Outcome) (s : RoverRpc η) : RoverRpc η × Bool :=
  if (s.subs roverID).isSome then (s, true)
  else
    match s.conn roverID o.dials with
    | (s, none) => (s, false)
    | (s, some c) =>
      match s.subscribeAll c roverID o.accepts [] handlers with
      | (s, none) => (s, false)
      | (s, some subs) => ({ s with subs := update s.subs roverID (some subs) }, true)

def remove (roverID : String) (s : RoverRpc η) : RoverRpc η :=
  { s.unsubscribe ((s.subs roverID).getD []) with subs := update s.subs roverID none }

inductive Act
  | conn (roverID : String) (dials : Bool)
  | evict (roverID : String)
  | ensure (roverID : String) (o : Outcome)
  | remove (roverID : String)
  | ensureAll (listed : Option (List (String × Outcome)))
  | connCloses (roverID : String)

def step (handlers : List η) (s : RoverRpc η) : Act → RoverRpc η
  | .conn roverID dials => (s.conn roverID dials).1
  | .evict roverID => s.evict roverID
  | .ensure roverID o => (s.ensure handlers roverID o).1
  | .remove roverID => s.remove roverID
  | .ensureAll listed => (listed.getD []).foldl (fun s e => (s.ensure handlers e.1 e.2).1) s
  | .connCloses roverID => s.connCloses roverID

variable {s t : RoverRpc η} {own : String → List (Subscription η)} {handlers : List η} {roverID : String} {c : Nat}

/-- The subscriptions of each rover are those in `own`, on the connection of the pool or on one that has closed. -/
structure Held (own : String → List (Subscription η)) (s : RoverRpc η) : Prop where
  own : ∀ r, s.active.filter (·.roverID = r) = own r
  pooled : ∀ x ∈ s.active, x.conn ∈ s.closed ∨ s.conns x.roverID = some x.conn
  issued : ∀ x ∈ s.active, x.id < s.issued
  ids : (s.active.map (·.id)).Nodup
  closed : ∀ c ∈ s.closed, c < s.opened
  opened : ∀ r c, s.conns r = some c → c < s.opened

theorem Held.mem_own (h : s.Held own) {x : Subscription η} {r : String} : x ∈ own r ↔ x ∈ s.active ∧ x.roverID = r := by
  rw [← h.own, List.mem_filter, decide_eq_true_iff]

theorem Held.subscribe (h : s.Held own) (hc : s.conns roverID = some c) (handler : η) :
    (s.subscribe c roverID handler).Held (update own roverID (own roverID ++ [⟨s.issued, c, roverID, handler⟩])) where
  own r := by
    dsimp only [RoverRpc.subscribe]
    rw [List.filter_append, h.own]
    by_cases hr : r = roverID
    · subst hr
      simp
    · simp [hr, Ne.symm hr]
  pooled x hx := by
    rcases List.mem_append.mp hx with hx | hx
    · exact h.pooled x hx
    · rw [List.mem_singleton.mp hx]
      exact .inr hc
  issued x hx := by
    rcases List.mem_append.mp hx with hx | hx
    · exact Nat.lt_succ_of_lt (h.issued x hx)
    · rw [List.mem_singleton.mp hx]
      exact Nat.lt_succ_self _
  ids := by
    dsimp only [RoverRpc.subscribe]
    rw [List.map_append]
    refine List.nodup_append'.mpr ⟨h.ids, List.nodup_singleton _, fun i hi hnew => ?_⟩
    obtain ⟨x, hx, rfl⟩ := List.mem_map.mp hi
    exact Nat.ne_of_lt (h.issued x hx) (List.mem_singleton.mp hnew)
  closed := h.closed
  opened := h.opened

theorem Held.unsubscribe (h : s.Held own) (roverID : String) : (s.unsubscribe (own roverID)).Held (update own roverID []) where
  own r := by
    dsimp only [RoverRpc.unsubscribe]
    rw [List.filter_comm, h.own]
    by_cases hr : r = roverID
    · subst hr
      rw [update_self, List.filter_eq_nil_iff]
      intro x hx
      simpa using ⟨x, hx, rfl⟩
    · rw [update_of_ne hr, List.filter_eq_self]
      -- a subscription of another rover has another number
      intro x hx
      rw [decide_eq_true_iff]
      intro hid
      obtain ⟨y, hy, heq⟩ := List.mem_map.mp hid
      obtain ⟨hx, hxr⟩ := h.mem_own.mp hx
      obtain ⟨hy, hyr⟩ := h.mem_own.mp hy
      rw [← List.inj_on_of_nodup_map h.ids hy hx heq, hyr] at hxr
      exact hr hxr.symm
  pooled x hx := h.pooled x (List.mem_filter.mp hx).1
  issued x hx := h.issued x (List.mem_filter.mp hx).1
  ids := h.ids.sublist (List.filter_sublist.map _)
  closed := h.closed
  opened := h.opened

theorem conn_of_open (hc : s.conns roverID = some c) (hopen : c ∉ s.closed) (dials : Bool) :
    s.conn roverID dials = (s, some c) := by
  rw [conn, hc, Option.filter_some_pos (by simpa using hopen)]

theorem Held.conn (h : s.Held own) (roverID : String) (dials : Bool) :
    (s.conn roverID dials).1.Held own ∧ (s.conn roverID dials).1.subs = s.subs ∧
      ∀ c, (s.conn roverID dials).2 = some c →
        (s.conn roverID dials).1.conns roverID = some c ∧ c ∉ (s.conn roverID dials).1.closed := by
  cases hfilter : (s.conns roverID).filter (· ∉ s.closed) with
  | some c =>
    obtain ⟨hc, hopen⟩ := Option.filter_eq_some_iff.mp hfilter
    rw [decide_eq_true_iff] at hopen
    rw [conn_of_open hc hopen]
    refine ⟨h, rfl, fun c' hc' => ?_⟩
    cases hc'
    exact ⟨hc, hopen⟩
  | none =>
    unfold RoverRpc.conn
    rw [hfilter]
    dsimp only
    split
    · refine ⟨⟨h.own, fun x hx => ?_, h.issued, h.ids, ?_, ?_⟩, rfl, fun c hc => ?_⟩
      · rcases h.pooled x hx with hclosed | hpooled
        · exact .inl hclosed
        by_cases hr : x.roverID = roverID
        · -- only a connection that has closed is replaced
          have hclosed : x.conn ∈ s.closed := by simpa [hr ▸ hpooled, Option.filter] using hfilter
          exact .inl hclosed
        · exact .inr ((update_of_ne hr ..).trans hpooled)
      · exact fun c hc => Nat.lt_succ_of_lt (h.closed c hc)
      · intro r c hc
        by_cases hr : r = roverID
        · subst hr
          cases (update_self ..).symm.trans hc
          exact Nat.lt_succ_self _
        · exact Nat.lt_succ_of_lt (h.opened r c ((update_of_ne hr ..).symm.trans hc))
      · cases hc
        exact ⟨update_self .., fun hclosed => Nat.lt_irrefl _ (h.closed _ hclosed)⟩
    · exact ⟨h, rfl, fun c hc => by cases hc⟩

theorem Held.connCloses (h : s.Held own) (roverID : String) : (s.connCloses roverID).Held own := by
  refine ⟨h.own, fun x hx => (h.pooled x hx).imp_left (List.mem_append_left _), h.issued, h.ids, fun c hc => ?_, h.opened⟩
  rcases List.mem_append.mp hc with hc | hc
  · exact h.closed c hc
  · exact h.opened roverID c (Option.mem_toList.mp hc)

theorem Held.evict (h : s.Held own) (roverID : String) : (s.evict roverID).Held own := by
  have hcloses := h.connCloses roverID
  refine ⟨h.own, fun x hx => ?_, h.issued, h.ids, hcloses.closed, fun r c hc => ?_⟩
  · rcases h.pooled x hx with hclosed | hpooled
    · exact .inl (List.mem_append_left _ hclosed)
    by_cases hr : x.roverID = roverID
    · rw [hr] at hpooled
      exact .inl (List.mem_append_right _ (Option.mem_toList.mpr hpooled))
    · exact .inr ((update_of_ne hr ..).trans hpooled)
  · by_cases hr : r = roverID
    · subst hr
      cases (update_self ..).symm.trans hc
    · exact h.opened r c ((update_of_ne hr ..).symm.trans hc)

theorem Held.subscribeAll (accepts : Nat → Bool) (hs : List η) {subs : List (Subscription η)} (h : s.Held own)
    (hown : own roverID = subs) (hc : s.conns roverID = some c) :
    (s.subscribeAll c roverID accepts subs hs).1.Held
        (update own roverID ((s.subscribeAll c roverID accepts subs hs).2.getD [])) ∧
      (s.subscribeAll c roverID accepts subs hs).1.subs = s.subs ∧
      (s.subscribeAll c roverID accepts subs hs).1.closed = s.closed ∧
      ∀ xs, (s.subscribeAll c roverID accepts subs hs).2 = some xs → ∃ new, xs = subs ++ new ∧
        new.map (·.handler) = hs ∧ ∀ x ∈ new, x.conn = c := by
  induction hs generalizing s own subs with
  | nil =>
    refine ⟨?_, rfl, rfl, fun xs hxs => ⟨[], by cases hxs; simp, rfl, nofun⟩⟩
    rwa [RoverRpc.subscribeAll, Option.getD_some, ← hown, update_eq_self]
  | cons handler hs ih =>
    rw [RoverRpc.subscribeAll]
    split
    · obtain ⟨hheld, hsubs, hclosed, hall⟩ := ih (h.subscribe hc handler) (by rw [update_self, hown]) hc
      rw [update_idem] at hheld
      refine ⟨hheld, hsubs, hclosed, fun xs hxs => ?_⟩
      obtain ⟨new, rfl, hhandlers, hconn⟩ := hall xs hxs
      refine ⟨⟨s.issued, c, roverID, handler⟩ :: new, by simp, by simp [hhandlers], fun x hx => ?_⟩
      rcases List.mem_cons.mp hx with rfl | hx
      · rfl
      · exact hconn x hx
    · exact ⟨hown ▸ h.unsubscribe roverID, rfl, rfl, fun xs hxs => by cases hxs⟩

/-- What the dispatcher has is what the clients hold, for all of the handlers. -/
structure Tracks (handlers : List η) (s : RoverRpc η) : Prop where
  held : s.Held fun r => (s.subs r).getD []
  all : ∀ r xs, s.subs r = some xs → xs.map (·.handler) = handlers

theorem getD_update (f : String → Option (List (Subscription η))) (roverID : String) (x : Option (List (Subscription η))) :
    (fun r => (update f roverID x r).getD []) = update (fun r => (f r).getD []) roverID (x.getD []) := by
  funext r
  by_cases hr : r = roverID
  · rw [hr, update_self, update_self]
  · rw [update_of_ne hr, update_of_ne hr]

theorem Tracks.set (h : s.Tracks handlers) {x : Option (List (Subscription η))} (hsubs : t.subs = update s.subs roverID x)
    (hheld : t.Held (update (fun r => (s.subs r).getD []) roverID (x.getD [])))
    (hall : ∀ xs, x = some xs → xs.map (·.handler) = handlers) : t.Tracks handlers := by
  refine ⟨by rwa [hsubs, getD_update], fun r xs hxs => ?_⟩
  rw [hsubs] at hxs
  by_cases hr : r = roverID
  · rw [hr, update_self] at hxs
    exact hall xs hxs
  · rw [update_of_ne hr] at hxs
    exact h.all r xs hxs

theorem Tracks.ensure (h : s.Tracks handlers) (roverID : String) (o : Outcome) :
    (s.ensure handlers roverID o).1.Tracks handlers ∧
      ((s.ensure handlers roverID o).2 = true → ∃ xs, (s.ensure handlers roverID o).1.subs roverID = some xs ∧
        (s.subs roverID = none → ∀ x ∈ xs, x.conn ∉ (s.ensure handlers roverID o).1.closed) ∧
        (s.subs roverID ≠ none → (s.ensure handlers roverID o).1 = s)) := by
  unfold RoverRpc.ensure
  split
  · rename_i hsome
    obtain ⟨xs, hxs⟩ := Option.isSome_iff_exists.mp hsome
    exact ⟨h, fun _ => ⟨xs, hxs, fun hnone => (by rw [hnone] at hxs; cases hxs), fun _ => rfl⟩⟩
  rename_i hnone
  rw [Option.not_isSome_iff_eq_none] at hnone
  obtain ⟨hheld, hsubs, hconn⟩ := h.held.conn roverID o.dials
  revert hheld hsubs hconn
  rcases s.conn roverID o.dials with ⟨t, _ | c⟩
  · intro hheld hsubs _
    refine ⟨⟨by rw [hsubs]; exact hheld, fun r xs hxs => h.all r xs (by rwa [← hsubs])⟩, fun hfalse => by cases hfalse⟩
  intro hheld hsubs hconn
  obtain ⟨hc, hopen⟩ := hconn c rfl
  obtain ⟨hheld, hsubs', hclosed, hall⟩ := hheld.subscribeAll o.accepts handlers
    (show (s.subs roverID).getD [] = [] by rw [hnone]; rfl) hc
  dsimp only
  revert hheld hsubs' hclosed hall
  rcases t.subscribeAll c roverID o.accepts [] handlers with ⟨u, _ | xs⟩
  · intro hheld hsubs' _ _
    refine ⟨h.set (x := none) ?_ hheld nofun, fun hfalse => by cases hfalse⟩
    rw [hsubs', hsubs, ← hnone, update_eq_self]
  intro hheld hsubs' hclosed hall
  obtain ⟨new, rfl, hhandlers, hnew⟩ := hall xs rfl
  refine ⟨h.set (by rw [← hsubs, ← hsubs']) ⟨hheld.own, hheld.pooled, hheld.issued, hheld.ids, hheld.closed, hheld.opened⟩
    (fun xs hxs => by cases hxs; exact hhandlers), fun _ => ⟨_, update_self .., fun _ x hx => ?_, fun hsome => absurd hnone hsome⟩⟩
  rw [hnew x hx]
  dsimp only
  rwa [hclosed]

theorem Tracks.step (h : s.Tracks handlers) (a : Act) : (s.step handlers a).Tracks handlers := by
  cases a with
  | conn roverID dials =>
    obtain ⟨hheld, hsubs, -⟩ := h.held.conn roverID dials
    exact ⟨by rw [RoverRpc.step, hsubs]; exact hheld, fun r xs hxs => h.all r xs (by rwa [RoverRpc.step, hsubs] at hxs)⟩
  | evict roverID => exact ⟨h.held.evict roverID, h.all⟩
  | ensure roverID o => exact (h.ensure roverID o).1
  | remove roverID =>
    have hheld := h.held.unsubscribe roverID
    exact h.set (x := none) rfl ⟨hheld.own, hheld.pooled, hheld.issued, hheld.ids, hheld.closed, hheld.opened⟩ nofun
  | ensureAll listed => exact List.foldlRecOn (motive := Tracks handlers) _ _ h fun s hs e _ => (hs.ensure e.1 e.2).1
  | connCloses roverID => exact ⟨h.held.connCloses roverID, h.all⟩

def live (roverID : String) (s : RoverRpc η) : List (Subscription η) :=
  s.active.filter fun x => x.roverID = roverID ∧ x.conn ∉ s.closed

/-- Each handler has one live subscription for the rover, on the connection that `Pool.Conn` returns. -/
def Responds (handlers : List η) (roverID : String) (s : RoverRpc η) : Prop :=
  ∀ dials c, (s.conn roverID dials).2 = some c →
    (s.live roverID).map (·.handler) = handlers ∧ ∀ x ∈ s.live roverID, x.conn = c

/-- No connection that the dispatcher subscribed on for the rover has closed. -/
def Current (roverID : String) (s : RoverRpc η) : Prop := ∀ xs, s.subs roverID = some xs → ∀ x ∈ xs, x.conn ∉ s.closed

theorem Tracks.live (h : s.Tracks handlers) (roverID : String) :
    s.live roverID = ((s.subs roverID).getD []).filter fun x => x.conn ∉ s.closed := by
  rw [← h.held.own, List.filter_filter]
  refine List.filter_congr fun x _ => ?_
  rw [Bool.decide_and, Bool.and_comm]

theorem Tracks.responds_iff (h : s.Tracks handlers) {xs : List (Subscription η)} (hxs : s.subs roverID = some xs) :
    s.Responds handlers roverID ↔ ∀ x ∈ xs, x.conn ∉ s.closed := by
  have hlive := h.live roverID
  rw [hxs, Option.getD_some] at hlive
  constructor
  · intro hresponds x hx
    obtain ⟨c, hc⟩ : ∃ c, (s.conn roverID true).2 = some c := by
      unfold RoverRpc.conn
      split <;> simp
    have hlength := congrArg List.length ((hresponds true c hc).1.trans (h.all roverID xs hxs).symm)
    rw [List.length_map, List.length_map, hlive] at hlength
    simpa using List.length_filter_eq_length_iff.mp hlength x hx
  · intro hopen dials c hc
    have hall : s.live roverID = xs := by
      rw [hlive, List.filter_eq_self]
      simpa using hopen
    rw [hall]
    refine ⟨h.all roverID xs hxs, fun x hx => ?_⟩
    obtain ⟨hactive, hr⟩ := h.held.mem_own.mp (show x ∈ (s.subs roverID).getD [] by rwa [hxs])
    have hpooled := (h.held.pooled x hactive).resolve_left (hopen x hx)
    rw [conn_of_open (hr ▸ hpooled) (hopen x hx)] at hc
    exact Option.some.inj hc

end RoverRpc

open RoverRpc in
/-- After any calls and closed connections, and an `Ensure` that succeeds: the responders of the rover are there, on the connection of the pool, just if the connection they were made on had not closed before. -/
theorem responders_follow (handlers : List η) (acts : List Act) (roverID : String) (o : Outcome)
    (hensure : ((acts.foldl (step handlers) {}).ensure handlers roverID o).2 = true) :
    ((acts.foldl (step handlers) {}).ensure handlers roverID o).1.Responds handlers roverID ↔
      (acts.foldl (step handlers) {}).Current roverID := by
  have hinit : ({} : RoverRpc η).Tracks handlers :=
    ⟨⟨fun _ => rfl, nofun, nofun, List.nodup_nil, nofun, nofun⟩, nofun⟩
  have hs := List.foldlRecOn (motive := Tracks handlers) acts (step handlers) hinit fun s hs a _ => hs.step a
  revert hensure
  generalize acts.foldl (step handlers) {} = s at hs
  intro hensure
  obtain ⟨ht, hsubs⟩ := hs.ensure roverID o
  obtain ⟨xs, hxs, hnew, hold⟩ := hsubs hensure
  rw [ht.responds_iff hxs]
  by_cases hnone : s.subs roverID = none
  · refine iff_of_true (hnew hnone) fun ys hys => ?_
    rw [hnone] at hys
    cases hys
  · rw [hold hnone] at hxs ⊢
    exact ⟨fun hopen ys hys => Option.some.inj (hxs.symm.trans hys) ▸ hopen, fun hcurrent => hcurrent xs hxs⟩

def reachable : RoverRpc.Outcome := ⟨true, fun _ => true⟩

theorem responders_follow_ensured :
    ((List.foldl (RoverRpc.step ["rpc.ice_servers"]) {} [.ensure "r1" reachable]).ensure ["rpc.ice_servers"] "r1" reachable).2 = true ∧
      ((List.foldl (RoverRpc.step ["rpc.ice_servers"]) {} [.ensure "r1" reachable]).ensure ["rpc.ice_servers"] "r1"
        reachable).1.Responds ["rpc.ice_servers"] "r1" := by
  refine ⟨rfl, (responders_follow ["rpc.ice_servers"] [.ensure "r1" reachable] "r1" reachable rfl).mpr fun xs hxs => ?_⟩
  cases hxs
  decide

/-- The connection closes: `Ensure` succeeds, `Pool.Conn` returns a new connection, and nothing answers on it. -/
theorem responders_lost_after_close :
    ((List.foldl (RoverRpc.step ["rpc.ice_servers"]) {} [.ensure "r1" reachable, .connCloses "r1"]).ensure ["rpc.ice_servers"]
        "r1" reachable).2 = true ∧
      ¬((List.foldl (RoverRpc.step ["rpc.ice_servers"]) {} [.ensure "r1" reachable, .connCloses "r1"]).ensure
        ["rpc.ice_servers"] "r1" reachable).1.Responds ["rpc.ice_servers"] "r1" := by
  refine ⟨rfl, fun h => ?_⟩
  have hlive := (h true 1 rfl).1
  cases hlive

end Waypoint.Proxy
