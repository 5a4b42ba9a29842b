import Waypoint.Base.Run
import Waypoint.Proxy.ClassIndex

/-!
# The command relay

The relay listens in the sessions account and republishes what it hears into the account of the rover named in the subject.
-/

namespace Waypoint.Proxy

open Base Agent

variable {β : Type}

structure Msg (β : Type) where
  subject : String
  header : List (String × String) := []
  data : β
  deriving DecidableEq

/-- `Header.Get`: the first value of the key, or nothing. -/
def Msg.get (m : Msg β) (key : String) : String := (m.header.lookup key).getD ""

def relayedHeader : String := "Waypoint-Relayed"

/-- The body of every forwarding subscription: the rover whose account the frame goes to and the frame, if it is republished. `connects` is the outcome of `conns.Conn`. -/
def handle (connects : Bool) (m : Msg β) : Option (String × Msg β) :=
  if m.get relayedHeader ≠ "" then none
  else if roverIDFromSubject m.subject = "" then none
  else if connects = false then none
  else some (roverIDFromSubject m.subject, { subject := m.subject, data := m.data, header := [(relayedHeader, "1")] })

def subjects : List String :=
  ["waypoint.*.cmd.>", "waypoint.*.rpc.set_mode", "waypoint.*.rpc.estop", "waypoint.*.rpc.recover",
    "waypoint.*.module.*.command"]

def modulesSubject : String := "waypoint.*.infra.modules"

def componentSubject : String := "waypoint.*.module.*.*.cmd"

def subscriptions : List String := subjects ++ [modulesSubject, componentSubject]

/-- Who publishes, the relay apart. -/
inductive Publisher
  | session
  | rover (roverID : String)
  deriving DecidableEq

structure Publication (β : Type) where
  publisher : Publisher
  msg : Msg β
  deriving DecidableEq

/-- A frame in the sessions account, with its publisher; the relay's own frames have none. -/
structure Delivery (β : Type) where
  source : Option Publisher
  msg : Msg β
  deriving DecidableEq

def Exported (roverID subject : String) : Prop :=
  covers (tokens ("waypoint." ++ roverID ++ ".>")) (tokens subject) = true

instance (roverID subject : String) : Decidable (Exported roverID subject) := inferInstanceAs (Decidable (_ = true))

def Publication.Visible (p : Publication β) : Prop :=
  match p.publisher with
  | .session => True
  | .rover roverID => Exported roverID p.msg.subject

instance : (p : Publication β) → Decidable p.Visible
  | ⟨.session, _⟩ => inferInstanceAs (Decidable True)
  | ⟨.rover roverID, m⟩ => inferInstanceAs (Decidable (Exported roverID m.subject))

/-- The frames that wait for each subscription, the class index, and the frames republished so far with the account each went to. -/
structure Relay (β : Type) where
  pending : String → List (Delivery β) := fun _ => []
  classes : ClassIndex := {}
  republished : List (String × Delivery β) := []

inductive RelayAction (β : Type)
  | publish (p : Publication β)
  | take (subscription : String) (connects : Bool)

def RelayAction.published : RelayAction β → Option (Publication β)
  | publish p => some p
  | take _ _ => none

namespace Relay

def deliver (s : Relay β) (d : Delivery β) : Relay β :=
  { s with
    pending := fun pattern =>
      if pattern ∈ subscriptions ∧ covers (tokens pattern) (tokens d.msg.subject) = true then s.pending pattern ++ [d]
      else s.pending pattern }

/-- A republished frame comes back through the export. -/
def republish (s : Relay β) (d : Delivery β) (roverID : String) (out : Msg β) : Relay β :=
  let s := { s with republished := s.republished ++ [(roverID, d)] }
  if Exported roverID out.subject then s.deliver ⟨none, out⟩ else s

def forward (s : Relay β) (connects : Bool) (d : Delivery β) : Relay β :=
  match handle connects d.msg with
  | none => s
  | some (roverID, out) => s.republish d roverID out

variable (unmarshal : β → Option ModuleSnapshot)

def onMessage (s : Relay β) (subscription : String) (connects : Bool) (d : Delivery β) : Relay β :=
  if subscription = modulesSubject then
    { s with classes := s.classes.onModules d.msg.subject (unmarshal d.msg.data) }
  else if subscription = componentSubject ∧ s.classes.allow d.msg.subject = false then s
  else s.forward connects d

def leave (s : Relay β) (subscription : String) (rest : List (Delivery β)) : Relay β :=
  { s with pending := Function.update s.pending subscription rest }

def next (s : Relay β) : RelayAction β → Option (Relay β)
  | .publish p => some (if p.Visible then s.deliver ⟨some p.publisher, p.msg⟩ else s)
  | .take subscription connects =>
    match s.pending subscription with
    | [] => none
    | d :: rest => some ((s.leave subscription rest).onMessage unmarshal subscription connects d)

/-- Only what a session has sent is republished. -/
def EchoFree (s : Relay β) : Prop := ∀ e ∈ s.republished, e.2.source = some .session

end Relay

theorem handle_eq_some {connects : Bool} {m out : Msg β} {roverID : String} :
    handle connects m = some (roverID, out) ↔
      m.get relayedHeader = "" ∧ roverIDFromSubject m.subject ≠ "" ∧ connects = true ∧
        roverID = roverIDFromSubject m.subject ∧
        out = { subject := m.subject, data := m.data, header := [(relayedHeader, "1")] } := by
  unfold handle
  by_cases hmarked : m.get relayedHeader = ""
  · by_cases hid : roverIDFromSubject m.subject = ""
    · simp [hmarked, hid]
    · cases connects with
      | false => simp
      | true => simp [hmarked, hid, eq_comm]
  · simp [hmarked]

section Condition

variable (unmarshal : β → Option ModuleSnapshot) (pubs : List (Publication β))

/-- A visible snapshot declares the component. -/
def Declared (subject : String) : Prop :=
  ∃ p ∈ pubs, p.Visible ∧ (({} : ClassIndex).onModules p.msg.subject (unmarshal p.msg.data)).allow subject = true

def Forwarded (m : Msg β) : Prop :=
  m.get relayedHeader = "" ∧ roverIDFromSubject m.subject ≠ "" ∧
    ((∃ pattern ∈ subjects, covers (tokens pattern) (tokens m.subject) = true) ∨
      covers (tokens componentSubject) (tokens m.subject) = true ∧ Declared unmarshal pubs m.subject)

/-- A waiting frame is one that was published, or a copy that is marked. -/
structure Delivery.Stems (d : Delivery β) : Prop where
  copy : ∃ p ∈ pubs, p.Visible ∧ p.msg.subject = d.msg.subject ∧ p.msg.data = d.msg.data
  marked : d.source = none → d.msg.get relayedHeader ≠ ""
  published : ∀ publisher, d.source = some publisher →
    (⟨publisher, d.msg⟩ : Publication β) ∈ pubs ∧ (⟨publisher, d.msg⟩ : Publication β).Visible

/-- What holds along a run whose publications are among `pubs`. -/
structure Relay.Tracks (s : Relay β) : Prop where
  pending : ∀ pattern, ∀ d ∈ s.pending pattern,
    pattern ∈ subscriptions ∧ covers (tokens pattern) (tokens d.msg.subject) = true ∧ d.Stems pubs
  classes : ∀ subject, s.classes.allow subject = true → Declared unmarshal pubs subject
  republished : s.EchoFree

end Condition

namespace Relay

@[simp] theorem pending_leave_self (s : Relay β) (subscription : String) (rest : List (Delivery β)) :
    (s.leave subscription rest).pending subscription = rest := Function.update_self ..

variable {subscription : String}

theorem pending_leave_of_ne (s : Relay β) {q : String} (h : q ≠ subscription) (rest : List (Delivery β)) :
    (s.leave subscription rest).pending q = s.pending q := Function.update_of_ne h ..

theorem mem_pending_deliver {s : Relay β} {d x : Delivery β} {pattern : String} :
    x ∈ (s.deliver d).pending pattern ↔ x ∈ s.pending pattern ∨
      (pattern ∈ subscriptions ∧ covers (tokens pattern) (tokens d.msg.subject) = true) ∧ x = d := by
  show x ∈ (if _ then _ else _) ↔ _
  by_cases hmatch : pattern ∈ subscriptions ∧ covers (tokens pattern) (tokens d.msg.subject) = true
  · rw [if_pos hmatch, List.mem_append, List.mem_singleton]
    exact ⟨fun h => h.imp_right fun hx => ⟨hmatch, hx⟩, fun h => h.imp_right fun hx => hx.2⟩
  · rw [if_neg hmatch]
    exact ⟨.inl, fun h => h.elim (fun hx => hx) fun hx => absurd hx.1 hmatch⟩

variable {unmarshal : β → Option ModuleSnapshot} {pubs : List (Publication β)}

theorem Tracks.deliver {s : Relay β} (h : s.Tracks unmarshal pubs) {d : Delivery β} (hd : d.Stems pubs) :
    (s.deliver d).Tracks unmarshal pubs := by
  refine ⟨fun pattern x hx => ?_, h.classes, h.republished⟩
  rcases mem_pending_deliver.mp hx with hx | ⟨⟨hpattern, hcovers⟩, rfl⟩
  · exact h.pending pattern x hx
  · exact ⟨hpattern, hcovers, hd⟩

theorem Tracks.republish {s : Relay β} (h : s.Tracks unmarshal pubs) {d : Delivery β} (hd : d.Stems pubs)
    (hsession : d.source = some .session) {connects : Bool} {roverID : String} {out : Msg β}
    (hhandle : handle connects d.msg = some (roverID, out)) : (s.republish d roverID out).Tracks unmarshal pubs := by
  obtain ⟨-, -, -, -, rfl⟩ := handle_eq_some.mp hhandle
  have hlogged : ({ s with republished := s.republished ++ [(roverID, d)] } : Relay β).Tracks unmarshal pubs := by
    refine ⟨h.pending, h.classes, fun e he => ?_⟩
    rcases List.mem_append.mp he with he | he
    · exact h.republished e he
    · rw [List.mem_singleton.mp he]
      exact hsession
  unfold Relay.republish
  split
  · refine hlogged.deliver ⟨hd.copy, fun _ => ?_, fun publisher hnone => (by cases hnone)⟩
    show "1" ≠ ""
    decide
  · exact hlogged

section Quiet

variable (hquiet : ∀ roverID m, (⟨.rover roverID, m⟩ : Publication β) ∈ pubs → Exported roverID m.subject →
  ¬Forwarded unmarshal pubs m)

include hquiet

theorem Tracks.forward {s : Relay β} (h : s.Tracks unmarshal pubs) {d : Delivery β} (hd : d.Stems pubs)
    (hsubject : d.msg.get relayedHeader = "" → roverIDFromSubject d.msg.subject ≠ "" → Forwarded unmarshal pubs d.msg)
    (connects : Bool) : (s.forward connects d).Tracks unmarshal pubs := by
  unfold Relay.forward
  split
  · exact h
  rename_i roverID out hhandle
  obtain ⟨hunmarked, hid, -, -, -⟩ := handle_eq_some.mp hhandle
  refine h.republish hd ?_ hhandle
  cases hsource : d.source with
  | none => exact absurd hunmarked (hd.marked hsource)
  | some publisher =>
    cases publisher with
    | session => rfl
    | rover r =>
      obtain ⟨hpublished, hvisible⟩ := hd.published _ hsource
      exact absurd (hsubject hunmarked hid) (hquiet r d.msg hpublished hvisible)

theorem Tracks.onMessage {s : Relay β} (h : s.Tracks unmarshal pubs) {d : Delivery β} (hd : d.Stems pubs)
    {subscription : String} (hsubscription : subscription ∈ subscriptions)
    (hcovers : covers (tokens subscription) (tokens d.msg.subject) = true) (connects : Bool) :
    (s.onMessage unmarshal subscription connects d).Tracks unmarshal pubs := by
  unfold Relay.onMessage
  split
  · refine ⟨h.pending, fun subject hallow => ?_, h.republished⟩
    rcases ClassIndex.allow_of_onModules hallow with hbefore | hnow
    · exact h.classes subject hbefore
    · obtain ⟨p, hp, hvisible, hsame, hdata⟩ := hd.copy
      exact ⟨p, hp, hvisible, by rw [hsame, hdata]; exact hnow⟩
  · rename_i hmodules
    split
    · exact h
    rename_i hrefused
    refine h.forward hquiet hd (fun hunmarked hid => ⟨hunmarked, hid, ?_⟩) connects
    rcases List.mem_append.mp hsubscription with hfixed | hother
    · exact .inl ⟨subscription, hfixed, hcovers⟩
    rcases List.mem_cons.mp hother with hother | hother
    · exact absurd hother hmodules
    obtain rfl := List.mem_singleton.mp hother
    refine .inr ⟨hcovers, h.classes _ ?_⟩
    rw [not_and, Bool.not_eq_false] at hrefused
    exact hrefused rfl

theorem Tracks.next {s t : Relay β} {a : RelayAction β} (h : s.Tracks unmarshal pubs)
    (hpublished : ∀ p, a.published = some p → p ∈ pubs) (hnext : s.next unmarshal a = some t) :
    t.Tracks unmarshal pubs := by
  cases a with
  | publish p =>
    cases hnext
    have hp : p ∈ pubs := hpublished p rfl
    by_cases hvisible : p.Visible
    · rw [if_pos hvisible]
      refine h.deliver ⟨⟨p, hp, hvisible, rfl, rfl⟩, fun hnone => (by cases hnone), fun publisher heq => ?_⟩
      cases heq
      exact ⟨hp, hvisible⟩
    · rw [if_neg hvisible]
      exact h
  | take subscription connects =>
    simp only [Relay.next] at hnext
    split at hnext
    · cases hnext
    rename_i d rest hpending
    cases hnext
    obtain ⟨hsubscription, hcovers, hstems⟩ := h.pending subscription d (hpending ▸ List.mem_cons_self)
    have hrest : (s.leave subscription rest).Tracks unmarshal pubs := by
      refine ⟨fun pattern x hx => ?_, h.classes, h.republished⟩
      by_cases hpattern : pattern = subscription
      · subst hpattern
        rw [pending_leave_self] at hx
        exact h.pending pattern x (hpending ▸ List.mem_cons_of_mem d hx)
      · rw [pending_leave_of_ne s hpattern] at hx
        exact h.pending pattern x hx
    exact hrest.onMessage hquiet hstems hsubscription hcovers connects

end Quiet

theorem onMessage_disconnected (unmarshal : β → Option ModuleSnapshot) (s : Relay β) (subscription : String)
    (d : Delivery β) :
    (s.onMessage unmarshal subscription false d).pending = s.pending ∧
      (subscription ≠ modulesSubject → (s.onMessage unmarshal subscription false d).classes = s.classes) := by
  have hforward : s.forward false d = s := by
    unfold forward
    split
    · rfl
    · rename_i hhandle
      cases (handle_eq_some.mp hhandle).2.2.1
  unfold onMessage
  split
  · rename_i hmodules
    exact ⟨rfl, fun hother => absurd hmodules hother⟩
  split
  · exact ⟨rfl, fun _ => rfl⟩
  · rw [hforward]
    exact ⟨rfl, fun _ => rfl⟩

theorem next_take (unmarshal : β → Option ModuleSnapshot) {s : Relay β} {d : Delivery β}
    {rest : List (Delivery β)} (hpending : s.pending subscription = d :: rest) (connects : Bool) :
    s.next unmarshal (.take subscription connects) =
      some ((s.leave subscription rest).onMessage unmarshal subscription connects d) := by
  simp only [next, hpending]

def Leads (unmarshal : β → Option ModuleSnapshot) (pubs : List (Publication β)) (s t : Relay β) : Prop :=
  ∃ acts, acts.filterMap RelayAction.published = pubs ∧ Run (Takes (next unmarshal)) s acts t

theorem Leads.refl (s : Relay β) : Leads unmarshal [] s s := ⟨[], rfl, .nil s⟩

theorem Leads.trans {s m t : Relay β} {pubs' : List (Publication β)} (h : Leads unmarshal pubs s m)
    (h' : Leads unmarshal pubs' m t) : Leads unmarshal (pubs ++ pubs') s t := by
  obtain ⟨acts, rfl, hrun⟩ := h
  obtain ⟨acts', rfl, hrun'⟩ := h'
  exact ⟨acts ++ acts', List.filterMap_append, hrun.append hrun'⟩

theorem Leads.silently {s m t : Relay β} (h : Leads unmarshal pubs s m) (h' : Leads unmarshal [] m t) :
    Leads unmarshal pubs s t := by
  have htrans := h.trans h'
  rwa [List.append_nil] at htrans

theorem leads_publish (p : Publication β) (s : Relay β) :
    Leads unmarshal [p] s (if p.Visible then s.deliver ⟨some p.publisher, p.msg⟩ else s) :=
  ⟨[.publish p], rfl, .cons rfl (.nil _)⟩

theorem leads_take {s : Relay β} {d : Delivery β} {rest : List (Delivery β)}
    (hpending : s.pending subscription = d :: rest) (connects : Bool) :
    Leads unmarshal [] s ((s.leave subscription rest).onMessage unmarshal subscription connects d) :=
  ⟨[.take subscription connects], rfl, .cons (next_take unmarshal hpending connects) (.nil _)⟩

/-- Any waiting frame can be made the next one of its subscription, with the other subscriptions as they were. -/
theorem drain {s : Relay β} {d : Delivery β} (h : d ∈ s.pending subscription) :
    ∃ t rest, Leads unmarshal [] s t ∧ t.pending subscription = d :: rest ∧
      (∀ q, q ≠ subscription → t.pending q = s.pending q) ∧
      (subscription ≠ modulesSubject → t.classes = s.classes) := by
  obtain ⟨before, rest, hpending⟩ := List.append_of_mem h
  clear h
  induction before generalizing s with
  | nil => exact ⟨s, rest, .refl s, hpending, fun _ _ => rfl, fun _ => rfl⟩
  | cons x before ih =>
    obtain ⟨hkept, hclasses⟩ :=
      onMessage_disconnected unmarshal (s.leave subscription (before ++ d :: rest)) subscription x
    obtain ⟨t, rest', hleads, hhead, hothers, hsame⟩ := ih (s := onMessage unmarshal _ subscription false x)
      (by rw [hkept, pending_leave_self])
    refine ⟨t, rest', (leads_take hpending false).trans hleads, hhead, ?_, ?_⟩
    · intro q hq
      rw [hothers q hq, hkept, pending_leave_of_ne s hq]
    · intro hmodules
      rw [hsame hmodules, hclasses hmodules]
      rfl

theorem publish_all (unmarshal : β → Option ModuleSnapshot) (pubs : List (Publication β)) (s : Relay β) :
    ∃ t, Leads unmarshal pubs s t ∧ t.classes = s.classes ∧
      ∀ pattern, (∀ d ∈ s.pending pattern, d ∈ t.pending pattern) ∧
        ∀ p ∈ pubs, p.Visible → pattern ∈ subscriptions → covers (tokens pattern) (tokens p.msg.subject) = true →
          ⟨some p.publisher, p.msg⟩ ∈ t.pending pattern := by
  induction pubs generalizing s with
  | nil => exact ⟨s, .refl s, rfl, fun _ => ⟨fun _ hd => hd, fun _ hp => absurd hp List.not_mem_nil⟩⟩
  | cons p pubs ih =>
    obtain ⟨t, hleads, hclasses, hpending⟩ := ih (if p.Visible then s.deliver ⟨some p.publisher, p.msg⟩ else s)
    refine ⟨t, (leads_publish p s).trans hleads, ?_, fun pattern => ⟨fun d hd => ?_, ?_⟩⟩
    · rw [hclasses]
      split <;> rfl
    · refine (hpending pattern).1 d ?_
      split
      · exact mem_pending_deliver.mpr (.inl hd)
      · exact hd
    · rw [List.forall_mem_cons]
      refine ⟨fun hvisible hpattern hcovers => ?_, (hpending pattern).2⟩
      refine (hpending pattern).1 _ ?_
      rw [if_pos hvisible]
      exact mem_pending_deliver.mpr (.inr ⟨⟨hpattern, hcovers⟩, rfl⟩)

theorem mem_republished_republish (s : Relay β) (d : Delivery β) (roverID : String) (out : Msg β) :
    (roverID, d) ∈ (s.republish d roverID out).republished := by
  unfold republish
  split
  · exact List.mem_append_right _ (List.mem_singleton_self _)
  · exact List.mem_append_right _ (List.mem_singleton_self _)

theorem echo_of_pending {s : Relay β} {d : Delivery β} (h : d ∈ s.pending subscription)
    (hmodules : subscription ≠ modulesSubject)
    (hallow : subscription = componentSubject → s.classes.allow d.msg.subject = true)
    (hunmarked : d.msg.get relayedHeader = "") (hid : roverIDFromSubject d.msg.subject ≠ "") :
    ∃ t roverID, Leads unmarshal [] s t ∧ (roverID, d) ∈ t.republished := by
  obtain ⟨m, rest, hleads, hhead, -, hclasses⟩ := drain h
  rw [← hclasses hmodules] at hallow
  refine ⟨_, roverIDFromSubject d.msg.subject, hleads.trans (leads_take hhead true), ?_⟩
  have hhandle := handle_eq_some.mpr ⟨hunmarked, hid, rfl, rfl, rfl⟩
  have hopen : ¬(subscription = componentSubject ∧ (m.leave subscription rest).classes.allow d.msg.subject = false) := by
    rintro ⟨hcomponent, hrefused⟩
    cases (hallow hcomponent).symm.trans hrefused
  rw [onMessage, if_neg hmodules, if_neg hopen, forward, hhandle]
  exact mem_republished_republish ..

theorem learn_of_pending {s : Relay β} {d : Delivery β} (h : d ∈ s.pending modulesSubject) {subject : String}
    (hallow : (({} : ClassIndex).onModules d.msg.subject (unmarshal d.msg.data)).allow subject = true) :
    ∃ t, Leads unmarshal [] s t ∧ t.classes.allow subject = true ∧
      ∀ q, q ≠ modulesSubject → t.pending q = s.pending q := by
  obtain ⟨m, rest, hleads, hhead, hothers, -⟩ := drain h
  refine ⟨_, hleads.trans (leads_take hhead true), ?_, ?_⟩
  · rw [onMessage, if_pos rfl]
    exact ClassIndex.allow_onModules hallow m.classes
  · intro q hq
    rw [onMessage, if_pos rfl]
    exact (pending_leave_of_ne m hq rest).trans (hothers q hq)

theorem echoes {p : Publication β} (hp : p ∈ pubs) (hvisible : p.Visible) (hforwarded : Forwarded unmarshal pubs p.msg) :
    ∃ t roverID, Leads unmarshal pubs {} t ∧ (roverID, ⟨some p.publisher, p.msg⟩) ∈ t.republished := by
  obtain ⟨hunmarked, hid, hsubject⟩ := hforwarded
  obtain ⟨m, hall, -, hpending⟩ := publish_all unmarshal pubs {}
  rcases hsubject with ⟨pattern, hpattern, hcovers⟩ | ⟨hcovers, q, hq, hqvisible, hallow⟩
  · have hfixed : ∀ pattern ∈ subjects, pattern ≠ modulesSubject ∧ pattern ≠ componentSubject := by decide
    have hwaits := (hpending pattern).2 p hp hvisible (List.mem_append_left _ hpattern) hcovers
    obtain ⟨t, roverID, hecho, hmem⟩ := echo_of_pending hwaits (hfixed pattern hpattern).1
      (fun hcomponent => absurd hcomponent (hfixed pattern hpattern).2) hunmarked hid
    exact ⟨t, roverID, hall.silently hecho, hmem⟩
  · -- the declaring snapshot is learned first, then the frame is taken
    have hsnapshot : covers (tokens modulesSubject) (tokens q.msg.subject) = true := by
      by_contra hother
      rw [ClassIndex.onModules, if_neg (fun h => hother h.1)] at hallow
      exact ClassIndex.not_allow_empty _ hallow
    have hqwaits := (hpending modulesSubject).2 q hq hqvisible (by decide) hsnapshot
    have hwaits := (hpending componentSubject).2 p hp hvisible (by decide) hcovers
    obtain ⟨m', hlearn, hallowed, hothers⟩ := learn_of_pending hqwaits hallow
    have hcomponent : componentSubject ≠ modulesSubject := by decide
    rw [← hothers componentSubject hcomponent] at hwaits
    obtain ⟨t, roverID, hecho, hmem⟩ := echo_of_pending hwaits hcomponent (fun _ => hallowed) hunmarked hid
    exact ⟨t, roverID, (hall.silently hlearn).silently hecho, hmem⟩

end Relay

/-- No schedule of the publications sends a frame of a rover's client back, exactly if no such frame counts as forwarded. -/
theorem rover_frames_not_echoed_iff (unmarshal : β → Option ModuleSnapshot) (pubs : List (Publication β)) :
    (∀ acts t, acts.filterMap RelayAction.published = pubs → Run (Takes (Relay.next unmarshal)) {} acts t → t.EchoFree) ↔
      ∀ roverID m, ⟨.rover roverID, m⟩ ∈ pubs → Exported roverID m.subject → ¬Forwarded unmarshal pubs m := by
  constructor
  · intro h roverID m hm hexported hforwarded
    obtain ⟨t, r, ⟨acts, hacts, hrun⟩, hecho⟩ := Relay.echoes hm hexported hforwarded
    cases h acts t hacts hrun _ hecho
  intro hquiet acts t hacts hrun
  have hinit : ({} : Relay β).Tracks unmarshal pubs := by
    refine ⟨fun _ _ hd => absurd hd List.not_mem_nil, fun subject hallow => ?_, fun _ he => absurd he List.not_mem_nil⟩
    exact absurd hallow (ClassIndex.not_allow_empty subject)
  have hpublished : ∀ a ∈ acts, ∀ p, a.published = some p → p ∈ pubs := by
    intro a ha p hp
    exact hacts ▸ List.mem_filterMap.mpr ⟨a, ha, hp⟩
  exact (hrun.invariant_of_allowed (fun a => ∀ p, a.published = some p → p ∈ pubs)
    (fun s a t hallowed htracks hnext => htracks.next hquiet hallowed hnext) hpublished hinit).republished

/-- What the agent's drive broker publishes for a module: the twist on the rover's `cmd.drive`, with no header. -/
def driveFrame : Msg Unit := { subject := "waypoint.rover-1.cmd.drive", data := () }

theorem drive_frame_echoed :
    ∃ t, Run (Takes (Relay.next fun _ => none)) {}
        [.publish ⟨.rover "rover-1", driveFrame⟩, .take "waypoint.*.cmd.>" true] t ∧
      ("rover-1", ⟨some (.rover "rover-1"), driveFrame⟩) ∈ t.republished := by
  refine ⟨_, .cons rfl (.cons rfl (.nil _)), ?_⟩
  decide +kernel

end Waypoint.Proxy
