import Waypoint.Agent.Gateway
import Waypoint.Dashboard.Sockets

/-!
# Subscriptions after a reconnect

A socket that opens is sent the registered patterns and then the queue, which holds older envelopes.
-/

namespace Waypoint.Dashboard

open Base

/-- What an envelope leaves of one pattern, on the other side. -/
def settle (p : String) (kept : Bool) : Envelope → Bool
  | .sub q => kept || decide (q = p)
  | .unsub q => kept && decide (q ≠ p)
  | .pub _ _ => kept

theorem settle_about (p : String) (env : Envelope) :
    (∀ x y, settle p x env = settle p y env) ∨ ∀ x, settle p x env = x := by
  cases env with
  | sub q | unsub q =>
    by_cases hq : q = p
    · exact .inl fun x y => by simp [settle, hq]
    · exact .inr fun x => by simp [settle, hq]
  | pub q data => exact .inr fun x => rfl

theorem settle_subs (p : String) (l : List String) (kept : Bool) :
    (l.map Envelope.sub).foldl (settle p) kept = (kept || decide (p ∈ l)) := by
  induction l generalizing kept with
  | nil => simp
  | cons q l ih =>
    rw [List.map_cons, List.foldl_cons, ih, settle, Bool.or_assoc]
    simp [eq_comm]

def wire : Envelope → Agent.Gateway.Envelope
  | .sub subject => { action := .sub, subject }
  | .unsub subject => { action := .unsub, subject }
  | .pub subject data => { action := .pub, subject, data }

/-- A connection of the gateway that has processed what was sent, where `nc.Subscribe` succeeds. -/
def gateway (roverID : String) (envs : List Envelope) : Agent.Gateway.Connection :=
  envs.foldl (fun c env => c.handle roverID (wire env) true) {}

open Agent.Gateway.Connection in
theorem mem_handle (roverID p : String) (c : Agent.Gateway.Connection) (env : Envelope) :
    p ∈ (c.handle roverID (wire env) true).subs ↔
      (if subjectAllowed roverID p then settle p (decide (p ∈ c.subs)) env else decide (p ∈ c.subs)) = true := by
  cases hallowed : subjectAllowed roverID (wire env).subject with
  | false =>
    rw [handle, if_pos hallowed]
    split
    · rename_i hp
      have hne : (wire env).subject ≠ p := by
        rintro rfl
        rw [hallowed] at hp
        cases hp
      cases env <;> simp_all [settle, wire]
    · simp
  | true =>
    cases env with
    | sub q | unsub q =>
      by_cases hqp : q = p
      · subst hqp
        cases hq : c.subs.lookup q <;> simp_all [handle, wire, settle, ← AList.lookup_isSome]
      · cases hq : c.subs.lookup q <;> simp_all [handle, wire, settle, Ne.symm hqp]
    | pub q data => simp_all [handle, wire, settle]

open Agent.Gateway.Connection in
theorem mem_gateway (roverID p : String) (envs : List Envelope) :
    p ∈ (gateway roverID envs).subs ↔ subjectAllowed roverID p = true ∧ envs.foldl (settle p) false = true := by
  have hfold : ∀ c : Agent.Gateway.Connection,
      p ∈ (envs.foldl (fun c env => c.handle roverID (wire env) true) c).subs ↔
        (if subjectAllowed roverID p then envs.foldl (settle p) (decide (p ∈ c.subs)) else decide (p ∈ c.subs)) = true := by
    induction envs with
    | nil => simp
    | cons env envs ih =>
      intro c
      have hhead := mem_handle roverID p c env
      rw [List.foldl_cons, List.foldl_cons, ih]
      split
      · rename_i hp
        rw [if_pos hp] at hhead
        rw [Bool.eq_iff_iff.mpr ((decide_eq_true_iff).trans hhead)]
      · rename_i hp
        rw [if_neg hp, decide_eq_true_iff] at hhead
        rw [decide_eq_decide.mpr hhead]
  have hempty : decide (p ∈ ({} : Agent.Gateway.Connection).subs) = false := decide_eq_false (AList.notMem_empty p)
  rw [gateway, hfold, hempty]
  split <;> simp_all

def Envelope.publication : Envelope → Option (String × List UInt8)
  | .pub subject data => some (subject, data)
  | _ => none

def pubs (envs : List Envelope) : List (String × List UInt8) := envs.filterMap Envelope.publication

theorem pubs_append (a b : List Envelope) : pubs (a ++ b) = pubs a ++ pubs b := List.filterMap_append

theorem pubs_subs (l : List String) : pubs (l.map Envelope.sub) = [] := by
  rw [pubs, List.filterMap_map]
  exact List.filterMap_eq_nil_iff.mpr fun _ _ => rfl

def Bus.Event.publication : Bus.Event → Option (String × List UInt8)
  | .publish subject data => some (subject, data)
  | _ => none

namespace Bus

/-- An open socket has carried the queue and says which patterns are subscribed. -/
def Drained (b : Bus) (s : WebSocket) : Prop :=
  match s.readyState with
  | .connecting => s.sent = []
  | .open => b.queue = [] ∧ ∀ p, s.sent.foldl (settle p) false = decide (p ∈ b.serverSubs)
  | _ => True

/-- What holds of a bus after the publications `ps`. -/
structure Restored (ps : List (String × List UInt8)) (b : Bus) : Prop where
  single : b.Single
  last : ∀ i, b.ws = some i → i + 1 = b.sockets.length
  drained : ∀ s ∈ b.sockets, b.Drained s
  queued : ∀ p, b.queue.foldl (settle p) (decide (p ∈ b.serverSubs)) = decide (p ∈ b.serverSubs)
  published : (b.sockets.flatMap fun s => pubs s.sent) ++ pubs b.queue = ps

variable {b b' : Bus} {ps : List (String × List UInt8)} {i : Nat}

theorem Restored.past (h : b.Restored ps) (hws : b.ws = some i) :
    ∃ past s, b.sockets = past ++ [s] ∧ i = past.length ∧ ∀ t ∈ past, t.readyState = .closed := by
  obtain ⟨past, s, hsockets⟩ := (List.eq_nil_or_concat' b.sockets).resolve_left fun hnil => by
    have hlast := h.last i hws
    rw [hnil] at hlast
    cases hlast
  have hi : i = past.length := by simpa [hsockets] using h.last i hws
  refine ⟨past, s, hsockets, hi, fun t ht => ?_⟩
  obtain ⟨j, hj, rfl⟩ := List.getElem_of_mem ht
  by_contra hlive
  have hcurrent := h.single.current j past[j].readyState (by simp [stateOf, hsockets, List.getElem?_append_left hj, hj]) hlive
  rw [hws, hi, Option.some.injEq] at hcurrent
  omega

variable {past : List WebSocket} {s : WebSocket} {subject : String} {b₁ : Bus}

theorem drained_last (hsockets : b'.sockets = past ++ [s])
    (hpast : ∀ t ∈ past, t.readyState = .closed) (hs : b.Drained s) : ∀ t ∈ b'.sockets, b.Drained t := by
  intro t ht
  rw [hsockets, List.mem_append, List.mem_singleton] at ht
  rcases ht with ht | rfl
  · rw [Drained, hpast t ht]
    trivial
  · exact hs

theorem setSocket_last (hsockets : b.sockets = past ++ [s]) (f : WebSocket → WebSocket) :
    (b.setSocket past.length f).sockets = past ++ [f s] := by
  rw [setSocket, hsockets]
  exact List.modifyTailIdx_add (List.modifyHead f) 0 past [s]

theorem Restored.send (h : b.Restored ps) (env : Envelope) {subs : List String}
    (hsubs : ∀ p, decide (p ∈ subs) = settle p (decide (p ∈ b.serverSubs)) env) :
    (send env { b with serverSubs := subs }).Restored (ps ++ pubs [env]) := by
  have hsingle : (Bus.send env { b with serverSubs := subs }).Single := h.single.congr (link_send env _)
  have hpush (hclosed : ∀ s ∈ b.sockets, s.readyState ≠ .open) :
      ({ b with serverSubs := subs, queue := b.queue ++ [env] } : Bus).Restored (ps ++ pubs [env]) := by
    refine ⟨h.single.congr rfl, h.last, fun s hs => ?_, fun p => ?_, ?_⟩
    · have hold := h.drained s hs
      unfold Drained at hold ⊢
      split
      · simpa [*] using hold
      · exact absurd ‹_› (hclosed s hs)
      · trivial
    · dsimp only
      rw [List.foldl_append, hsubs]
      -- the new envelope decides, or it is not about the pattern
      rcases settle_about p env with hconst | hid
      · exact hconst _ _
      · exact (hid _).trans (by rw [hid]; exact h.queued p)
    · dsimp only
      rw [pubs_append, ← List.append_assoc, h.published]
  unfold Bus.send at hsingle ⊢
  dsimp only at hsingle ⊢
  split at hsingle
  · rename_i i hws
    obtain ⟨past, s, hsockets, rfl, hpast⟩ := h.past hws
    have hstate : (b.sockets[past.length]?.map (·.readyState)) = some s.readyState := by simp [hsockets]
    simp only [isOpen, hstate, Option.some.injEq, decide_eq_true_eq] at hsingle ⊢
    split
    · rename_i hopen
      rw [if_pos hopen] at hsingle
      have hold := h.drained s (by simp [hsockets])
      rw [Drained, hopen] at hold
      obtain ⟨hqueue, hsent⟩ := hold
      have hnew := setSocket_last (b := { b with serverSubs := subs }) hsockets fun s => { s with sent := s.sent ++ [env] }
      refine ⟨hsingle, fun i hi => ?_, drained_last hnew hpast ?_, fun p => ?_, ?_⟩
      · rw [sendOn, hnew]
        exact (h.last i hi).trans (by simp [hsockets])
      · rw [Drained, hopen]
        refine ⟨hqueue, fun p => ?_⟩
        rw [List.foldl_append, hsent]
        exact (hsubs p).symm
      · show b.queue.foldl (settle p) _ = _
        rw [hqueue]
        rfl
      · have hpublished := h.published
        rw [sendOn, hnew]
        show _ ++ pubs b.queue = _
        rw [hqueue, hsockets] at hpublished
        rw [hqueue, ← hpublished]
        simp [pubs]
    · rename_i hclosed
      refine hpush fun t ht => ?_
      rw [hsockets, List.mem_append, List.mem_singleton] at ht
      rcases ht with ht | rfl
      · simp [hpast t ht]
      · exact hclosed
  · rename_i hws
    refine hpush fun t ht hopen => ?_
    obtain ⟨j, hj, rfl⟩ := List.getElem_of_mem ht
    have hcurrent := h.single.current j .open (by simp [stateOf, hj, hopen]) (by simp)
    rw [hws] at hcurrent
    cases hcurrent

theorem Restored.register (h : b.Restored ps) :
    (Bus.send (.sub subject) { b with serverSubs := b.serverSubs ++ [subject] }).Restored ps := by
  have hsent := h.send (.sub subject) fun p => show decide (p ∈ b.serverSubs ++ [subject]) = _ by simp [settle, eq_comm]
  rwa [show pubs [.sub subject] = [] from rfl, List.append_nil] at hsent

theorem Restored.unregister (h : b.Restored ps) :
    (Bus.send (.unsub subject) { b with serverSubs := b.serverSubs.filter (· ≠ subject) }).Restored ps := by
  have hsent := h.send (.unsub subject) fun p => show decide (p ∈ b.serverSubs.filter (· ≠ subject)) = _ by
    by_cases hp : subject = p
    · simp [settle, hp]
    · simp [settle, hp, Ne.symm hp]
  rwa [show pubs [.unsub subject] = [] from rfl, List.append_nil] at hsent

theorem Restored.subscribe (h : b.Restored ps) (subject : String) (handler : Handler) :
    (b.subscribe subject handler).Restored ps := by
  unfold Bus.subscribe
  split
  · exact ⟨h.single.congr rfl, h.last, h.drained, h.queued, h.published⟩
  have hnew : ({ b with subs := b.subs ++ [(subject, [handler])] } : Bus).Restored ps :=
    ⟨h.single.congr rfl, h.last, h.drained, h.queued, h.published⟩
  unfold addServerSub
  split
  · exact hnew
  refine (List.foldlRecOn (motive := Restored ps) _ _ hnew fun b hb e _ => ?_).register
  unfold dropCovered
  split
  · exact hb.unregister
  · exact hb

theorem Restored.unsubscribe (h : b.Restored ps) (subject : String) (handler : Handler) :
    (b.unsubscribe subject handler).Restored ps := by
  unfold Bus.unsubscribe
  split
  · exact h
  dsimp only
  split
  · have hrest : ({ b with subs := b.subs.filter fun e => e.1 ≠ subject } : Bus).Restored ps :=
      ⟨h.single.congr rfl, h.last, h.drained, h.queued, h.published⟩
    unfold removeServerSub
    split
    · refine List.foldlRecOn (motive := Restored ps) _ _ hrest.unregister fun b hb p _ => ?_
      unfold Bus.restore
      split
      · exact hb
      · exact hb.register
    · exact hrest
  · exact ⟨h.single.congr rfl, h.last, h.drained, h.queued, h.published⟩

theorem Drained.congr (h : b.Drained s) (hqueue : b'.queue = b.queue) (hsubs : b'.serverSubs = b.serverSubs) :
    b'.Drained s := by
  unfold Drained
  rwa [hqueue, hsubs]

theorem Restored.connect (h : b.Restored ps) (hcred : b₁.cred ≠ none) (hsockets : b₁.sockets = b.sockets)
    (hqueue : b₁.queue = b.queue) (hsubs : b₁.serverSubs = b.serverSubs) (hsingle : b₁.connect.Single) : b₁.connect.Restored ps := by
  rw [connect_eq hcred, hsockets] at hsingle ⊢
  refine ⟨hsingle, fun i hi => ?_, fun s hs => ?_, ?_, ?_⟩
  · cases hi
    simp
  · rcases List.mem_append.mp hs with hs | hs
    · exact (h.drained s hs).congr hqueue hsubs
    · rw [List.mem_singleton.mp hs]
      rfl
  · rw [hqueue, hsubs]
    exact h.queued
  · simpa [pubs, hqueue] using h.published

theorem Restored.leave {r : ReadyState} (h : b.Restored ps) (hr : r ≠ .connecting ∧ r ≠ .open)
    (hsockets : b₁.sockets = (b.setState i r).sockets) (hqueue : b₁.queue = b.queue) (hsubs : b₁.serverSubs = b.serverSubs)
    (hws : ∀ j, b₁.ws = some j → b.ws = some j) (hsingle : b₁.Single) : b₁.Restored ps := by
  have hmem : ∀ s ∈ b₁.sockets, s ∈ b.sockets ∨ s.readyState = r := by
    intro s hs
    obtain ⟨j, hj⟩ := List.mem_iff_getElem?.mp hs
    simp only [hsockets, setState, setSocket, List.getElem?_modify] at hj
    obtain ⟨t, ht, rfl⟩ := Option.map_eq_some_iff.mp hj
    split
    · exact .inr rfl
    · exact .inl (List.mem_of_getElem? ht)
  have hsent : b₁.sockets.map (·.sent) = b.sockets.map (·.sent) := by
    apply List.ext_getElem?
    intro j
    simp only [hsockets, setState, setSocket, List.getElem?_map, List.getElem?_modify]
    cases b.sockets[j]? with
    | none => rfl
    | some s => split <;> rfl
  have hflat : ∀ l : List WebSocket, (l.flatMap fun s => pubs s.sent) = (l.map (·.sent)).flatMap pubs := fun l =>
    (List.flatMap_map ..).symm
  refine ⟨hsingle, fun i hi => ?_, fun s hs => ?_, ?_, ?_⟩
  · exact (h.last i (hws i hi)).trans (by simpa using congrArg List.length hsent.symm)
  · rcases hmem s hs with hs | heq
    · exact (h.drained s hs).congr hqueue hsubs
    · unfold Drained
      rw [heq]
      cases r <;> simp_all
  · rw [hqueue, hsubs]
    exact h.queued
  · rw [hflat, hsent, ← hflat, hqueue]
    exact h.published

theorem opened_eq (h : b.Restored ps) (hstate : b.stateOf i = some .connecting) :
    ∃ past, b.sockets = past ++ [⟨.connecting, []⟩] ∧ i = past.length ∧ (∀ t ∈ past, t.readyState = .closed) ∧
      ((b.setState i .open).onopen i).sockets = past ++ [⟨.open, b.serverSubs.map .sub ++ b.queue⟩] := by
  obtain ⟨past, s, hsockets, rfl, hpast⟩ := h.past (h.single.current i _ hstate (by simp))
  have hconnecting : s.readyState = .connecting := by simpa [stateOf, hsockets] using hstate
  have hunsent := h.drained s (by simp [hsockets])
  rw [Drained, hconnecting] at hunsent
  obtain rfl : s = ⟨.connecting, []⟩ := by rw [← hconnecting, ← hunsent]
  refine ⟨past, hsockets, rfl, hpast, ?_⟩
  have hopen := setSocket_last hsockets fun s => { s with readyState := .open }
  exact setSocket_last (b := b.setState past.length .open) hopen fun s => { s with sent := s.sent ++ _ }

theorem Restored.opened (h : b.Restored ps) (hstate : b.stateOf i = some .connecting)
    (hsingle : ((b.setState i .open).onopen i).Single) : ((b.setState i .open).onopen i).Restored ps := by
  obtain ⟨past, hsockets, rfl, hpast, hnew⟩ := opened_eq h hstate
  refine ⟨hsingle, fun i hi => ?_, drained_last hnew hpast ⟨rfl, fun p => ?_⟩, fun p => rfl, ?_⟩
  · rw [hnew]
    exact (h.last i hi).trans (by simp [hsockets])
  · -- the patterns first, and then what the queue says about them
    rw [List.foldl_append, settle_subs, Bool.false_or]
    exact h.queued p
  have hpublished := h.published
  rw [hsockets] at hpublished
  rw [hnew, ← hpublished]
  show _ ++ pubs [] = _
  simp [pubs_append, pubs_subs, show pubs [] = [] from rfl]

theorem Restored.next {e : Event} (h : b.Restored ps) (hallowed : Allowed e) (hnext : b.next e = some b') :
    b'.Restored (ps ++ e.publication.toList) := by
  have hsingle := single_next h.single hallowed hnext
  have hquiet : e.publication = none → b'.Restored ps → b'.Restored (ps ++ e.publication.toList) := fun hnone h => by
    rwa [hnone, Option.toList_none, List.append_nil]
  cases step_of_next hnext with
  | publish subject data => exact h.send (.pub subject data) fun p => rfl
  | started fetched hstarting =>
    refine hquiet rfl ?_
    cases fetched with
    | none => exact ⟨hsingle, h.last, h.drained, h.queued, h.published⟩
    | some cred => exact h.connect (by simp [scheduleRefresh]) rfl rfl rfl hsingle
  | subscribe subject handler => exact hquiet rfl (h.subscribe subject handler)
  | unsubscribe subject handler => exact hquiet rfl (h.unsubscribe subject handler)
  | opened i hstate => exact hquiet rfl (h.opened hstate hsingle)
  | frame subject =>
    refine hquiet rfl (List.foldlRecOn (motive := Restored ps) _ _ h fun b hb s _ => ?_)
    exact ⟨hb.single.congr rfl, hb.last, hb.drained, hb.queued, hb.published⟩
  | closing i r hstate hlive => exact hquiet rfl (h.leave (by simp) rfl rfl rfl (fun _ hj => hj) hsingle)
  | closed i r hstate hnot =>
    exact hquiet rfl (h.leave (r := .closed) (by simp) rfl rfl rfl (fun _ hj => by cases hj) hsingle)
  | reconnectTimer htimer =>
    refine hquiet rfl (h.connect (fun hnone => ?_) rfl rfl rfl hsingle)
    exact Nat.ne_of_gt htimer (h.single.fresh hnone).2.2.1
  | refreshTimer htimer => exact hquiet rfl ⟨hsingle, h.last, h.drained, h.queued, h.published⟩
  | refreshed fetched hrefreshing =>
    cases fetched with
    | none => exact hquiet rfl ⟨hsingle, h.last, h.drained, h.queued, h.published⟩
    | some cred => exact absurd rfl (hallowed cred)

theorem restored_run {es : List Event} (hrun : Run (Guarded (fun _ e => Allowed e) (Takes next)) b es b') (h : b.Restored ps) :
    b'.Restored (ps ++ es.filterMap Event.publication) := by
  induction hrun generalizing ps with
  | nil b => simpa using h
  | cons hstep _ ih =>
    have hrest := ih (h.next hstep.1 hstep.2)
    rw [List.filterMap_cons]
    split
    · rename_i hnone
      simpa [hnone] using hrest
    · rename_i hsome
      simpa [hsome] using hrest

end Bus

open Bus in
/-- When a socket opens, in a run without a refreshed credential: the gateway that has processed what was sent has the registered patterns that it allows, the publications that were queued are on the socket in their order, none is left, and the sockets together carry each publication of the run once and in order. -/
theorem reconnect_restores (roverID : String) {es : List Event} {b b' : Bus} {i : Nat}
    (hrun : Run (Guarded (fun _ e => Allowed e) (Takes next)) init es b) (hopened : b.next (.opened i) = some b') :
    ∃ s, b'.sockets[i]? = some s ∧ b'.queue = [] ∧
      (∀ p, p ∈ (gateway roverID s.sent).subs ↔
        p ∈ b'.serverSubs ∧ Agent.Gateway.Connection.subjectAllowed roverID p = true) ∧
      pubs s.sent = pubs b.queue ∧ (b'.sockets.flatMap fun s => pubs s.sent) = es.filterMap Event.publication := by
  have hinit : init.Restored [] := ⟨single_init, nofun, nofun, fun _ => rfl, rfl⟩
  have hb := restored_run hrun hinit
  have hb' := hb.next (nofun : Allowed (.opened i)) hopened
  obtain ⟨hstate, heq⟩ := Option.ite_none_right_eq_some.mp hopened
  obtain ⟨past, -, rfl, -, hnew⟩ := opened_eq hb hstate
  rw [Option.some.inj heq] at hnew
  have hqueue : b'.queue = [] := by
    rw [← Option.some.inj heq]
    rfl
  refine ⟨⟨.open, b.serverSubs.map .sub ++ b.queue⟩, by simp [hnew], hqueue, fun p => ?_, ?_, ?_⟩
  · have hdrained : b'.Drained ⟨.open, _⟩ := hb'.drained _ (by rw [hnew]; exact List.mem_append_right _ List.mem_cons_self)
    rw [mem_gateway, hdrained.2 p, decide_eq_true_iff, and_comm]
  · rw [pubs_append, pubs_subs, List.nil_append]
  · simpa [hqueue, pubs, Event.publication] using hb'.published

/-- A pattern is subscribed and given up, and a stop published, while the bus waits to reconnect. -/
def offline : List Bus.Event :=
  [.started (some ⟨"jwt", "seed", 3600, "wss://proxy/nats"⟩), .subscribe "waypoint.r1.>" 0, .opened 0, .closed 0,
    .subscribe "waypoint.r2.alerts" 1, .publish "waypoint.r1.cmd.estop" [], .unsubscribe "waypoint.r1.>" 0, .reconnectTimer]

theorem reconnect_restores_offline :
    ∃ b b', Run (Guarded (fun _ e => Bus.Allowed e) (Takes Bus.next)) Bus.init offline b ∧ b.next (.opened 1) = some b' ∧
      b'.serverSubs = ["waypoint.r2.alerts"] ∧
      ∃ s, b'.sockets[1]? = some s ∧ pubs s.sent = [("waypoint.r1.cmd.estop", [])] ∧
        ∀ p, p ∈ (gateway "r2" s.sent).subs ↔
          p ∈ b'.serverSubs ∧ Agent.Gateway.Connection.subjectAllowed "r2" p = true := by
  have hrun : ∃ b b', Run (Guarded (fun _ e => Bus.Allowed e) (Takes Bus.next)) Bus.init offline b ∧
      b.next (.opened 1) = some b' ∧ b'.serverSubs = ["waypoint.r2.alerts"] ∧
      pubs b.queue = [("waypoint.r1.cmd.estop", [])] :=
    ⟨_, _, .cons ⟨nofun, rfl⟩ (.cons ⟨nofun, rfl⟩ (.cons ⟨nofun, rfl⟩ (.cons ⟨nofun, rfl⟩ (.cons ⟨nofun, rfl⟩ (.cons ⟨nofun, rfl⟩
      (.cons ⟨nofun, rfl⟩ (.cons ⟨nofun, rfl⟩ (.nil _)))))))), rfl, by decide +kernel, by decide +kernel⟩
  obtain ⟨b, b', hrun, hopened, hserver, hqueue⟩ := hrun
  obtain ⟨s, hs, -, hkeys, hpubs, -⟩ := reconnect_restores "r2" hrun hopened
  exact ⟨b, b', hrun, hopened, hserver, s, hs, hpubs.trans hqueue, hkeys⟩

end Waypoint.Dashboard
