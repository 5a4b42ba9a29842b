import Waypoint.Base.Overlap
import Waypoint.Proxy.CmdRelay
import Waypoint.Proxy.SessionJwt

/-!
# What the relay republishes

No subject is taken by two of the subscriptions that forward, so a frame waits for one of them at most. A frame that the relay has republished comes back marked, and is dropped.
-/

namespace Waypoint.Proxy

open Base Agent

variable {β : Type}

def forwarding : List String := subjects ++ [componentSubject]

theorem forwarding_disjoint {p q : String} (hp : p ∈ forwarding) (hq : q ∈ forwarding) {s : List String}
    (hps : covers (tokens p) s = true) (hqs : covers (tokens q) s = true) : p = q := by
  by_contra hne
  have hdiffer : ∀ p ∈ forwarding, ∀ q ∈ forwarding, p ≠ q → differ (tokens p) (tokens q) = true := by decide +kernel
  rw [not_covers_of_differ (hdiffer p hp q hq hne) hps] at hqs
  cases hqs

theorem token_of_roverID {subject : String} (h : roverIDFromSubject subject ≠ "") :
    (tokens subject)[1]? = some (roverIDFromSubject subject) := by
  rcases htokens : tokens subject with _ | ⟨first, _ | ⟨id, _ | ⟨third, rest⟩⟩⟩
  · simp [roverIDFromSubject, htokens] at h
  · simp [roverIDFromSubject, htokens] at h
  · simp [roverIDFromSubject, htokens] at h
  simp only [roverIDFromSubject, htokens] at h ⊢
  by_cases hfirst : first = "waypoint"
  · simp [hfirst]
  · exact absurd (if_neg hfirst) h

namespace Relay

variable [DecidableEq β] {d x : Delivery β} {slot : String} {s t : Relay β} {n : Nat}

/-- What holds while `d` was published `n` times, where `slot` is the one subscription that may forward it. -/
structure Once (d : Delivery β) (slot : String) (n : Nat) (s : Relay β) : Prop where
  count : s.republished.countP (fun e => e.2 = d) + (s.pending slot).count d ≤ n
  pending : ∀ p, ∀ x ∈ s.pending p, p ∈ subscriptions ∧ covers (tokens p) (tokens x.msg.subject) = true ∧
    (x.source = none → x.msg.get relayedHeader ≠ "")
  republished : ∀ e ∈ s.republished, e.2.source ≠ none ∧ ∃ out, handle true e.2.msg = some (e.1, out)

theorem Once.deliver (h : s.Once d slot n) (hx : x.source = none → x.msg.get relayedHeader ≠ "") :
    (s.deliver x).Once d slot (n + if x = d then 1 else 0) := by
  refine ⟨?_, fun p y hy => ?_, h.republished⟩
  · have hcount : ((s.deliver x).pending slot).count d ≤ (s.pending slot).count d + if x = d then 1 else 0 := by
      change (if _ then _ else _ : List (Delivery β)).count d ≤ _
      split
      · rw [List.count_append, List.count_singleton]
        simp
      · exact Nat.le_add_right _ _
    have := h.count
    change s.republished.countP _ + _ ≤ _
    omega
  · rcases mem_pending_deliver.mp hy with hy | ⟨hmatch, rfl⟩
    · exact h.pending p y hy
    · exact ⟨hmatch.1, hmatch.2, hx⟩

theorem Once.forward (h : s.Once d slot n) (hslot : (s.republished.countP fun e => e.2 = d) + (s.pending slot).count d < n ∨ x ≠ d)
    (hd : d.source ≠ none) (hx : x.source = none → x.msg.get relayedHeader ≠ "") (connects : Bool) :
    (s.forward connects x).Once d slot n := by
  unfold Relay.forward
  split
  · exact h
  rename_i roverID out hhandle
  obtain ⟨hunmarked, hid, rfl, hrover, hout⟩ := handle_eq_some.mp hhandle
  have hlogged : Once d slot n { s with republished := s.republished ++ [(roverID, x)] } := by
    refine ⟨?_, h.pending, fun e he => ?_⟩
    · rw [List.countP_append, List.countP_singleton]
      have hcount := h.count
      by_cases hsame : x = d
      · have hless := hslot.resolve_right (not_not_intro hsame)
        simp only [hsame, decide_true, if_true]
        omega
      · simpa [hsame] using hcount
    · rcases List.mem_append.mp he with he | he
      · exact h.republished e he
      · rw [List.mem_singleton.mp he]
        exact ⟨fun hnone => hx hnone hunmarked, out, hhandle⟩
  unfold republish
  dsimp only
  split
  · have hmark : (⟨none, out⟩ : Delivery β) ≠ d := fun heq => hd (heq ▸ rfl)
    have hdeliver := hlogged.deliver (x := ⟨none, out⟩) fun _ => by
      rw [hout]
      show "1" ≠ ""
      decide
    rwa [if_neg hmark] at hdeliver
  · exact hlogged

theorem Once.leave (h : s.Once d slot n) {subscription : String} {rest : List (Delivery β)}
    (hpending : s.pending subscription = x :: rest) : (s.leave subscription rest).Once d slot n := by
  have hsub : ∀ p, ((s.leave subscription rest).pending p).Sublist (s.pending p) := by
    intro p
    by_cases hp : p = subscription
    · subst hp
      rw [pending_leave_self, hpending]
      exact List.sublist_cons_self x rest
    · rw [pending_leave_of_ne s hp]
  exact ⟨(Nat.add_le_add_left ((hsub slot).count_le d) _).trans h.count, fun p y hy => h.pending p y ((hsub p).subset hy),
    h.republished⟩

theorem Once.next {a : RelayAction β} {p : Publication β} {unmarshal : β → Option ModuleSnapshot}
    (h : s.Once ⟨some p.publisher, p.msg⟩ slot n)
    (hslot : ∀ q ∈ forwarding, covers (tokens q) (tokens p.msg.subject) = true → q = slot)
    (hnext : s.next unmarshal a = some t) :
    t.Once ⟨some p.publisher, p.msg⟩ slot (n + if a.published = some p then 1 else 0) := by
  cases a with
  | publish q =>
    obtain rfl := Option.some.inj hnext
    by_cases hvisible : q.Visible
    · rw [if_pos hvisible]
      have hdeliver := h.deliver (x := ⟨some q.publisher, q.msg⟩) fun hnone => by cases hnone
      by_cases hsame : q = p
      · subst hsame
        rw [if_pos rfl] at hdeliver
        rwa [if_pos (by rfl)]
      have hother : (⟨some q.publisher, q.msg⟩ : Delivery β) ≠ ⟨some p.publisher, p.msg⟩ := by
        cases p
        cases q
        simpa using hsame
      rw [if_neg hother] at hdeliver
      rwa [if_neg (show RelayAction.published (.publish q) ≠ some p from fun heq => hsame (Option.some.inj heq))]
    · rw [if_neg hvisible]
      exact ⟨h.count.trans (Nat.le_add_right n _), h.pending, h.republished⟩
  | take subscription connects =>
    rw [if_neg (show RelayAction.published (.take subscription connects) ≠ some p from fun heq => by cases heq)]
    simp only [Relay.next] at hnext
    split at hnext
    · cases hnext
    rename_i x rest hpending
    obtain rfl := Option.some.inj hnext
    obtain ⟨hsubscription, hcovers, hmarked⟩ := h.pending subscription x (hpending ▸ List.mem_cons_self)
    have hleft := h.leave hpending
    unfold onMessage
    split
    · exact ⟨hleft.count, hleft.pending, hleft.republished⟩
    rename_i hmodules
    split
    · exact hleft
    refine hleft.forward ?_ (by simp) hmarked connects
    by_cases hsame : x = ⟨some p.publisher, p.msg⟩
    · left
      have hforwards : subscription ∈ forwarding := by
        simpa [subscriptions, forwarding, hmodules] using hsubscription
      obtain rfl := hslot subscription hforwards (by rw [hsame] at hcovers; exact hcovers)
      have hcount := h.count
      rw [hpending, hsame, List.count_cons_self] at hcount
      rw [pending_leave_self]
      exact hcount
    · exact .inr hsame

end Relay

/-- Whatever is published and learned: no subject is forwarded by two subscriptions, a frame is republished as often as it was published at most, a republished frame never, and each goes out on its subject with its data, into the account of the rover named in it. -/
theorem relayed_at_most_once [DecidableEq β] (unmarshal : β → Option ModuleSnapshot) (acts : List (RelayAction β)) (s : Relay β)
    (hrun : Run (Takes (Relay.next unmarshal)) {} acts s) :
    (∀ subject, ∀ p ∈ forwarding, ∀ q ∈ forwarding, covers (tokens p) (tokens subject) = true →
      covers (tokens q) (tokens subject) = true → p = q) ∧
    (∀ p : Publication β, (s.republished.countP fun e => e.2 = ⟨some p.publisher, p.msg⟩) ≤
      acts.countP fun a => a.published = some p) ∧
    ∀ e ∈ s.republished, e.2.source ≠ none ∧ ∃ out, handle true e.2.msg = some (e.1, out) ∧ out.subject = e.2.msg.subject ∧
      out.data = e.2.msg.data ∧ (tokens out.subject)[1]? = some e.1 := by
  have honce : ∀ p : Publication β, ∃ slot, s.Once ⟨some p.publisher, p.msg⟩ slot (acts.countP fun a => a.published = some p) := by
    intro p
    obtain ⟨slot, hslot⟩ : ∃ slot, ∀ q ∈ forwarding, covers (tokens q) (tokens p.msg.subject) = true → q = slot := by
      by_cases hany : ∃ q ∈ forwarding, covers (tokens q) (tokens p.msg.subject) = true
      · obtain ⟨q, hq, hcovers⟩ := hany
        exact ⟨q, fun r hr hcovers' => forwarding_disjoint hr hq hcovers' hcovers⟩
      · exact ⟨"", fun q hq hcovers => absurd ⟨q, hq, hcovers⟩ hany⟩
    refine ⟨slot, ?_⟩
    have hall : ∀ {s t : Relay β} {acts n}, Run (Takes (Relay.next unmarshal)) s acts t →
        s.Once ⟨some p.publisher, p.msg⟩ slot n →
        t.Once ⟨some p.publisher, p.msg⟩ slot (n + acts.countP fun a => a.published = some p) := by
      intro s t acts n hrun
      induction hrun generalizing n with
      | nil s => exact fun h => h
      | cons hfirst _ ih =>
        intro h
        have hrest := ih (h.next hslot hfirst)
        rw [List.countP_cons, Nat.add_comm (List.countP _ _), ← Nat.add_assoc]
        simpa using hrest
    simpa using hall hrun (n := 0) ⟨by simp, by simp, by simp⟩
  refine ⟨fun subject p hp q hq hpc hqc => forwarding_disjoint hp hq hpc hqc, fun p => ?_, fun e he => ?_⟩
  · obtain ⟨slot, h⟩ := honce p
    exact (Nat.le_add_right _ _).trans h.count
  obtain ⟨slot, h⟩ := honce ⟨.session, e.2.msg⟩
  obtain ⟨hsource, out, hhandle⟩ := h.republished e he
  obtain ⟨-, hid, -, hrover, hout⟩ := handle_eq_some.mp hhandle
  refine ⟨hsource, out, hhandle, by rw [hout], by rw [hout], ?_⟩
  rw [hout, hrover]
  exact token_of_roverID hid

/-- A session's twist goes out once, and its copy is taken without an effect. -/
theorem relayed_at_most_once_twist : ∃ s, Run (Takes (Relay.next fun _ : Unit => none)) {}
    [.publish ⟨.session, { subject := "waypoint.r1.cmd.drive", data := () }⟩, .take "waypoint.*.cmd.>" true,
      .take "waypoint.*.cmd.>" true] s ∧ s.republished.length = 1 ∧ ∀ e ∈ s.republished, e.2.source ≠ none := by
  have hrun : (List.foldlM (Relay.next fun _ : Unit => none) {}
      [.publish ⟨.session, { subject := "waypoint.r1.cmd.drive", data := () }⟩, .take "waypoint.*.cmd.>" true,
        .take "waypoint.*.cmd.>" true]).map (fun s => s.republished.length) = some 1 := by decide +kernel
  obtain ⟨s, hs, hlength⟩ := Option.map_eq_some_iff.mp hrun
  have hs := run_takes_iff.mpr hs
  exact ⟨s, hs, hlength, fun e he => ((relayed_at_most_once _ _ s hs).2.2 e he).1⟩

/-- What a session may publish and the relay passes on goes to a rover that the session may drive, unless a rover is called like a wildcard. -/
theorem relayed_with_control [JwtList] (o : Operator) (now : Int) (userID : String) (accesses : List SessionAccess) (ttl : Int)
    (hids : ∀ a ∈ accesses, SingleToken a.roverID ∧ a.roverID ≠ "*" ∧ a.roverID ≠ ">") (connects : Bool) (m : Msg β)
    (hpub : (o.mintSessionUserJWT now userID accesses ttl).permissions.pub.permits m.subject = true) {roverID : String}
    {out : Msg β} (hrelay : handle connects m = some (roverID, out)) :
    ∃ a ∈ accesses, a.roverID = roverID ∧ (a.role = "control" ∨ a.role = "admin") ∧ a.MayPublish out.subject := by
  obtain ⟨-, hid, -, rfl, rfl⟩ := handle_eq_some.mp hrelay
  obtain ⟨third, rest, htokens⟩ : ∃ third rest, tokens m.subject = "waypoint" :: roverIDFromSubject m.subject :: third :: rest := by
    unfold roverIDFromSubject at hid ⊢
    split at hid
    · rename_i first id third rest htokens
      by_cases hfirst : first = "waypoint"
      · exact ⟨third, rest, by simp [htokens, hfirst]⟩
      · exact absurd (if_neg hfirst) hid
    · exact absurd rfl hid
  obtain ⟨a, ha, hgrant⟩ := (permits_mintSessionUserJWT o now userID accesses ttl m.subject).mp hpub
  have hmay := (pubGrant_iff_mayPublish (hids a ha).1 m.subject).mp hgrant
  refine ⟨a, ha, ?_, hmay.elim (fun h => .inl h.1) fun h => .inr (h.elim (·.1) (·.1)), hmay⟩
  rcases hmay with ⟨-, h | ⟨call, -, h⟩ | h⟩ | ⟨-, h | h | h⟩ | ⟨-, h⟩
  all_goals simp [Under, htokens, covers, (hids a ha).2] at h
  all_goals exact h.1

attribute [local instance] appending in
theorem relayed_with_control_twist :
    ∃ a ∈ [SessionAccess.mk "r1" "control", ⟨"r2", "monitor"⟩], a.roverID = "r1" ∧ a.MayPublish "waypoint.r1.cmd.drive" := by
  obtain ⟨a, ha, hid, -, hmay⟩ := relayed_with_control ⟨"AWAYPOINT"⟩ 0 "operator" [⟨"r1", "control"⟩, ⟨"r2", "monitor"⟩]
    sessionJWTTTL (by decide) true { subject := "waypoint.r1.cmd.drive", data := () } (by decide) rfl
  exact ⟨a, ha, hid, hmay⟩

end Waypoint.Proxy
