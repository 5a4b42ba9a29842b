import Waypoint.Base.Chan
import Waypoint.Base.Run
import Waypoint.Base.Table
import Waypoint.Base.Text

/-!
# Browser connections

`handleWS` of the agent's gateway: one browser connection as its processes. The read loop keeps the map of subscriptions.
-/

namespace Waypoint.Agent.Gateway

open Base

inductive Action
  | sub
  | unsub
  | pub
  | msg
  | other (action : String)
  deriving DecidableEq

structure Envelope where
  action : Action
  subject : String
  data : List UInt8 := []
  deriving DecidableEq

inductive ReadLoop
  | reading
  | unsubscribing (left : List Nat)
  | returned
  deriving DecidableEq

structure Connection where
  subs : Table String Nat := ∅
  made : Nat := 0
  /-- the subscriptions the bus client may still start callbacks for -/
  active : List Nat := []
  /-- the callbacks that have started, with the envelope each of them sends -/
  running : List (Nat × Envelope) := []
  out : Chan Envelope := { cap := 64 }
  done : Chan Unit := { cap := 0 }
  pumping : Bool := true
  written : List Envelope := []
  readLoop : ReadLoop := .reading
  panicked : Bool := false

inductive Event
  /-- the browser sends an envelope; the outcome is that of `nc.Subscribe`, if it is called -/
  | read (env : Envelope) (subscribed : Bool)
  | readFails
  | unsubscribe (id : Nat)
  | closeOut
  | deliver (id : Nat) (subject : String) (data : List UInt8)
  | send (id : Nat)
  | giveUp (id : Nat)
  | write (ok : Bool)
  deriving DecidableEq

namespace Connection

def subjectAllowed (roverID subject : String) : Bool := hasPrefix subject ("waypoint." ++ roverID ++ ".")

def handle (roverID : String) (s : Connection) (env : Envelope) (subscribed : Bool) : Connection :=
  if subjectAllowed roverID env.subject = false then s
  else
    match env.action with
    | .sub =>
      if (s.subs.lookup env.subject).isSome then s
      else if subscribed then
        { s with subs := s.subs.insert env.subject s.made, made := s.made + 1, active := s.active ++ [s.made] }
      else s
    | .unsub =>
      match s.subs.lookup env.subject with
      | some id => { s with subs := s.subs.erase env.subject, active := s.active.filter (· ≠ id) }
      | none => s
    | _ => s

def finish (s : Connection) (id : Nat) : List (Nat × Envelope) := s.running.filter (·.1 ≠ id)

def step (roverID : String) (s : Connection) : Event → Option Connection
  | .read env subscribed => if s.readLoop = .reading then some (s.handle roverID env subscribed) else none
  | .readFails =>
    if s.readLoop = .reading then some { s with readLoop := .unsubscribing (s.subs.entries.map (·.2)) } else none
  | .unsubscribe id =>
    match s.readLoop with
    | .unsubscribing left =>
      if id ∈ left then
        some { s with active := s.active.filter (· ≠ id), readLoop := .unsubscribing (left.filter (· ≠ id)) }
      else none
    | _ => none
  | .closeOut =>
    if s.readLoop = .unsubscribing [] then
      match s.out.close with
      | some out => some { s with out, readLoop := .returned }
      | none => some { s with panicked := true }
    else none
  | .deliver id subject data =>
    if id ∈ s.active ∧ id ∉ s.running.map (·.1) then
      some { s with running := s.running ++ [(id, { action := .msg, subject, data })] }
    else none
  | .send id =>
    match s.running.lookup id with
    | none => none
    | some env =>
      match s.out.send env with
      | .sent out => some { s with out, running := s.finish id }
      | .waits => none
      | .crashes => some { s with panicked := true }
  | .giveUp id =>
    match s.running.lookup id, s.done.receive with
    | some _, some _ => some { s with running := s.finish id }
    | _, _ => none
  | .write ok =>
    if s.pumping = false then none
    else
      match s.out.receive with
      | none => none
      | some (none, _) => some { s with pumping := false }
      | some (some env, out) =>
        if ok then some { s with out, written := s.written ++ [env] }
        else
          match s.done.close with
          | some done => some { s with out, done, pumping := false }
          | none => some { s with panicked := true }

def next (roverID : String) (s : Connection) (e : Event) : Option Connection :=
  if s.panicked then none else s.step roverID e

/-- What holds while the read loop is where it is: callbacks start only for subscriptions that the loop still knows of, `out` is open until it has returned, and then nobody is left to send. -/
def InPhase (s : Connection) : ReadLoop → Prop
  | .reading => s.out.closed = false ∧ ∀ id ∈ s.active, ∃ subject, s.subs.lookup subject = some id
  | .unsubscribing left => s.out.closed = false ∧ ∀ id ∈ s.active, id ∈ left
  | .returned => s.active = [] ∧ s.running = []

/-- No send or close on a closed channel is possible. -/
structure Sound (s : Connection) : Prop where
  alive : s.panicked = false
  done : s.pumping = true → s.done.closed = false
  phase : s.InPhase s.readLoop

theorem sound_init : Sound {} := ⟨rfl, fun _ => rfl, rfl, fun _ hid => (List.not_mem_nil hid).elim⟩

variable {s t : Connection} {roverID : String}

theorem Sound.out_open (hs : s.Sound) (hrunning : s.running ≠ []) : s.out.closed = false := by
  have hphase := hs.phase
  cases hloop : s.readLoop with
  | reading =>
    rw [hloop] at hphase
    exact hphase.1
  | unsubscribing left =>
    rw [hloop] at hphase
    exact hphase.1
  | returned =>
    rw [hloop] at hphase
    exact absurd hphase.2 hrunning

theorem InPhase.mono {loop : ReadLoop} (h : s.InPhase loop) (hsubs : t.subs = s.subs)
    (hactive : t.active = s.active) (hout : t.out.closed = s.out.closed) (hrunning : s.running = [] → t.running = []) :
    t.InPhase loop := by
  cases loop with
  | reading =>
    rw [InPhase, hsubs, hactive, hout]
    exact h
  | unsubscribing left =>
    rw [InPhase, hactive, hout]
    exact h
  | returned =>
    rw [InPhase, hactive]
    exact ⟨h.1, hrunning h.2⟩

theorem finish_nil {id : Nat} (h : s.running = []) : s.finish id = [] := by
  rw [finish, h]
  rfl

theorem sound_handle (hs : s.Sound) (hloop : s.readLoop = .reading) (env : Envelope)
    (subscribed : Bool) : (s.handle roverID env subscribed).Sound := by
  obtain ⟨halive, hdone, hphase⟩ := hs
  rw [hloop] at hphase
  obtain ⟨hopen, hknown⟩ := hphase
  have hsame : s.Sound := ⟨halive, hdone, by rw [hloop]; exact ⟨hopen, hknown⟩⟩
  unfold handle
  split
  · exact hsame
  split
  · split
    · exact hsame
    rename_i hnew
    split
    · refine ⟨halive, hdone, ?_⟩
      change InPhase _ s.readLoop
      rw [hloop]
      refine ⟨hopen, List.forall_mem_append.mpr ⟨fun id hid => ?_, List.forall_mem_singleton.mpr ?_⟩⟩
      · obtain ⟨subject, hsubject⟩ := hknown id hid
        have hne : subject ≠ env.subject := by
          intro heq
          rw [← heq, hsubject] at hnew
          exact hnew rfl
        exact ⟨subject, (AList.lookup_insert_ne hne).trans hsubject⟩
      · exact ⟨env.subject, AList.lookup_insert s.subs⟩
    · exact hsame
  · split
    · rename_i id hlookup
      refine ⟨halive, hdone, ?_⟩
      change InPhase _ s.readLoop
      rw [hloop]
      refine ⟨hopen, fun id' hid' => ?_⟩
      obtain ⟨hmem, hne⟩ := List.mem_filter.mp hid'
      obtain ⟨subject, hsubject⟩ := hknown id' hmem
      have hother : subject ≠ env.subject := by
        intro heq
        rw [heq, hlookup] at hsubject
        exact of_decide_eq_true hne (Option.some.inj hsubject).symm
      exact ⟨subject, (AList.lookup_erase_ne hother).trans hsubject⟩
    · exact hsame
  · exact hsame

/-- The channel is closed only when nothing runs. -/
def Quiet (s : Connection) (e : Event) : Prop := e = .closeOut → s.running = []

instance (s : Connection) (e : Event) : Decidable (Quiet s e) := inferInstanceAs (Decidable (_ → _))

theorem sound_step {e : Event} (hs : s.Sound) (hquiet : Quiet s e)
    (h : s.step roverID e = some t) : t.Sound := by
  have hphase := hs.phase
  cases e with
  | read env subscribed =>
    obtain ⟨hloop, hout⟩ := Option.ite_none_right_eq_some.mp h
    cases hout
    exact sound_handle hs hloop env subscribed
  | readFails =>
    obtain ⟨hloop, hout⟩ := Option.ite_none_right_eq_some.mp h
    cases hout
    rw [hloop] at hphase
    refine ⟨hs.alive, hs.done, hphase.1, fun id hid => ?_⟩
    obtain ⟨subject, hsubject⟩ := hphase.2 id hid
    exact List.mem_map_of_mem (f := Sigma.snd) (Table.mem_entries_iff.mpr hsubject)
  | unsubscribe id =>
    simp only [step] at h
    split at h
    · rename_i left hloop
      obtain ⟨hid, hout⟩ := Option.ite_none_right_eq_some.mp h
      cases hout
      rw [hloop] at hphase
      refine ⟨hs.alive, hs.done, hphase.1, fun id' hid' => ?_⟩
      obtain ⟨hmem, hne⟩ := List.mem_filter.mp hid'
      exact List.mem_filter.mpr ⟨hphase.2 id' hmem, hne⟩
    · cases h
  | closeOut =>
    obtain ⟨hloop, hout⟩ := Option.ite_none_right_eq_some.mp h
    rw [hloop] at hphase
    rw [Chan.close_of_open hphase.1] at hout
    cases hout
    exact ⟨hs.alive, hs.done, List.eq_nil_iff_forall_not_mem.mpr fun id hid => List.not_mem_nil (hphase.2 id hid), hquiet rfl⟩
  | deliver id subject data =>
    obtain ⟨⟨hid, -⟩, hout⟩ := Option.ite_none_right_eq_some.mp h
    cases hout
    refine ⟨hs.alive, hs.done, ?_⟩
    cases hloop : s.readLoop with
    | reading =>
      rw [hloop] at hphase
      exact hphase
    | unsubscribing left =>
      rw [hloop] at hphase
      exact hphase
    | returned =>
      rw [hloop] at hphase
      rw [hphase.1] at hid
      cases hid
  | send id =>
    simp only [step] at h
    split at h
    · cases h
    rename_i env henv
    have hopen : s.out.closed = false := by
      refine hs.out_open fun hnil => ?_
      rw [hnil] at henv
      cases henv
    split at h
    · rename_i out hsent
      cases h
      obtain ⟨-, -, rfl⟩ := Chan.send_eq_sent hsent
      exact ⟨hs.alive, hs.done, hphase.mono rfl rfl rfl finish_nil⟩
    · cases h
    · rename_i hcrash
      exact absurd hcrash (Chan.send_ne_crashes hopen env)
  | giveUp id =>
    simp only [step] at h
    split at h
    · cases h
      exact ⟨hs.alive, hs.done, hphase.mono rfl rfl rfl finish_nil⟩
    · cases h
  | write ok =>
    simp only [step] at h
    split at h
    · cases h
    rename_i hpumping
    split at h
    · cases h
    · cases h
      exact ⟨hs.alive, fun h => (by cases h), hphase.mono rfl rfl rfl id⟩
    rename_i env out hreceive
    obtain ⟨-, hclosed⟩ := Chan.receive_eq_some hreceive
    split at h
    · cases h
      exact ⟨hs.alive, hs.done, hphase.mono rfl rfl hclosed id⟩
    have hdone : s.done.closed = false := hs.done ((Bool.not_eq_false _).mp hpumping)
    rw [Chan.close_of_open hdone] at h
    cases h
    exact ⟨hs.alive, fun h => (by cases h), hphase.mono rfl rfl hclosed id⟩

/-- In every run in which `out` is closed only when no callback is running, nothing sends on it after it is closed; and a close while a callback is running lets that callback crash the agent. -/
theorem gateway_never_panics (roverID : String) (es : List Event) (t : Connection)
    (hrun : Run (Guarded Quiet (Takes (next roverID))) {} es t) :
    t.panicked = false ∧ ∀ u, t.next roverID .closeOut = some u → t.running ≠ [] →
      ∃ id v, u.next roverID (.send id) = some v ∧ v.panicked = true := by
  have hsound : t.Sound := by
    refine hrun.invariant Sound (fun s e t hs hstep => ?_) sound_init
    have htakes : (if s.panicked then none else s.step roverID e) = some t := hstep.2
    rw [hs.alive, if_neg Bool.false_ne_true] at htakes
    exact sound_step hs hstep.1 htakes
  refine ⟨hsound.alive, fun u hclose hrunning => ?_⟩
  have hstep : (if t.panicked then none else t.step roverID .closeOut) = some u := hclose
  rw [hsound.alive, if_neg Bool.false_ne_true] at hstep
  obtain ⟨hloop, hout⟩ := Option.ite_none_right_eq_some.mp hstep
  rw [Chan.close_of_open (hsound.out_open hrunning)] at hout
  cases hout
  obtain ⟨⟨id, env⟩, rest, hcons⟩ := List.exists_cons_of_ne_nil hrunning
  refine ⟨id, { t with out := { t.out with closed := true }, readLoop := .returned, panicked := true }, ?_, rfl⟩
  have hlookup : t.running.lookup id = some env := by rw [hcons, List.lookup_cons_self]
  unfold next step
  dsimp only
  rw [hsound.alive, if_neg Bool.false_ne_true, hlookup]
  dsimp only
  rw [Chan.send_closed rfl]

def subscribe : Event := .read { action := .sub, subject := "waypoint.rover-1.telemetry" } true

theorem gateway_never_panics_orderly :
    ∃ t, Run (Guarded Quiet (Takes (next "rover-1"))) {} [subscribe, .deliver 0 "waypoint.rover-1.telemetry" [1], .send 0,
        .write true, .readFails, .unsubscribe 0, .closeOut, .write true] t ∧ t.written.length = 1 ∧ t.panicked = false := by
  have hrun : ∃ t, [subscribe, .deliver 0 "waypoint.rover-1.telemetry" [1], .send 0, .write true, .readFails, .unsubscribe 0,
      .closeOut, .write true].foldlM (fun s e => if Quiet s e then next "rover-1" s e else none) {} = some t ∧
        t.written.length = 1 := ⟨_, rfl, rfl⟩
  obtain ⟨t, hfold, hwritten⟩ := hrun
  have hguarded := run_guarded_iff.mpr hfold
  exact ⟨t, hguarded, hwritten, (gateway_never_panics "rover-1" _ t hguarded).1⟩

/-- The browser goes away between the start of a callback and its send. -/
theorem send_after_close :
    ∃ t, Run (Takes (next "rover-1")) {} [subscribe, .deliver 0 "waypoint.rover-1.telemetry" [1], .readFails,
        .unsubscribe 0, .closeOut, .send 0] t ∧ t.panicked = true :=
  ⟨_, run_takes_iff.mpr rfl, rfl⟩

end Connection

end Waypoint.Agent.Gateway
